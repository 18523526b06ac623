import ServerCentral.Oidc.Registrations
import ServerCentral.Oidc.ServerSteps
import ServerCentral.Oidc.Resets

/-!
# What survives the deletion of a client

A request that arrives after the registration is gone is turned away, and one that
presents a replaced secret is refused (`registration_safe`). What the deletion does not
reach is a request that has its client already: a handler that goes on past the check of
the secret issues tokens for a client that is no longer there, and the row it adds after
the sweep stays in the store (`deletion_overtaken`).
-/

open Framework ServerCentral.Auth

namespace ServerCentral.Oidc

/-! ### Steps of the operations -/

variable {env : SecretEnv}

/-- What a step of `registrationMachine` is: one of the server, or one segment of an
operation. -/
inductive RegistrationShape (env : SecretEnv) (s : RegistrationState) :
    RegistrationLabel → RegistrationState → RegistrationOut → Prop
  | server {l : ServerLabel} {server : ServerState} {o : ServerOut}
      (h_server : s.server.step env.toOidcEnv l = some (server, o)) :
      RegistrationShape env s (.server l) { s with server := server, clientOf := s.named l o }
        (.server o)
  | deletes (clientId : String) (persists : Bool) :
      RegistrationShape env s (.deleteClient clientId)
        { s with
          server := { s.server with oidc := s.server.oidc.deleteClient clientId }
          admin := s.admin.set s.calls (.deleting clientId persists)
          calls := s.calls + 1 }
        (.admin s.calls (.await (.deleting clientId persists)))
  | unknown (clientId clientSecret : String) :
      RegistrationShape env s (.regenerateSecret clientId clientSecret)
        { s with calls := s.calls + 1 } (.admin s.calls (.failed "Unknown client"))
  | draws (clientId : String) {clientSecret : String} (h_fresh : s.Fresh env clientSecret) :
      RegistrationShape env s (.regenerateSecret clientId clientSecret)
        { s with
          admin := s.admin.set s.calls (.hashing clientId clientSecret)
          calls := s.calls + 1
          secrets := clientSecret :: s.secrets }
        (.admin s.calls (.await (.hashing clientId clientSecret)))
  | fails {call : ℕ} {r : Settled} {message : String} :
      RegistrationShape env s (.settle call r) { s with admin := s.admin.erase call }
        (.admin call (.failed message))
  | sweeps {call : ℕ} {r : Settled} {clientId : String} {persists : Bool} (again : Bool)
      (h_at : s.admin.get? call = some (.deleting clientId persists)) :
      RegistrationShape env s (.settle call r)
        { s with
          server := { s.server with refresh := (s.server.refresh.revokeForClient clientId).store }
          admin := s.admin.set call (.sweeping clientId again) }
        (.admin call (.await (.sweeping clientId again)))
  | deleted {call : ℕ} {r : Settled} {clientId : String} {persists : Bool}
      (h_at : s.admin.get? call = some (.sweeping clientId persists)) :
      RegistrationShape env s (.settle call r) { s with admin := s.admin.erase call }
        (.admin call (.deleted clientId))
  | stores {call : ℕ} {r : Settled} {clientId secret : String}
      (h_at : s.admin.get? call = some (.hashing clientId secret)) :
      RegistrationShape env s (.settle call r)
        { s with
          server :=
            { s.server with oidc := s.server.oidc.storeSecret clientId (env.hash r.salt secret) }
          admin := s.admin.set call (.savingSecret clientId secret)
          hashes := env.hash r.salt secret :: s.hashes }
        (.admin call (.await (.savingSecret clientId secret)))
  | regenerated {call : ℕ} {r : Settled} {clientId secret : String}
      (h_at : s.admin.get? call = some (.savingSecret clientId secret)) :
      RegistrationShape env s (.settle call r) { s with admin := s.admin.erase call }
        (.admin call (.regenerated clientId secret))

/-- **One step.** -/
theorem registration_step_shape {s s' : RegistrationState} {l : RegistrationLabel}
    {o : RegistrationOut} (hs : s.step env l = some (s', o)) : RegistrationShape env s l s' o := by
  cases l with
  | server l =>
    obtain ⟨⟨server, o'⟩, h_server, h_eq⟩ := Option.map_eq_some_iff.mp hs
    obtain ⟨rfl, rfl⟩ := Prod.mk.inj h_eq
    exact .server h_server
  | deleteClient clientId =>
    obtain ⟨rfl, rfl⟩ := Prod.mk.inj (Option.some.inj hs)
    exact .deletes clientId _
  | regenerateSecret clientId clientSecret =>
    simp only [RegistrationState.step] at hs
    split at hs
    · obtain ⟨rfl, rfl⟩ := Prod.mk.inj (Option.some.inj hs)
      exact .unknown clientId clientSecret
    · split at hs
      · next h_fresh =>
        obtain ⟨rfl, rfl⟩ := Prod.mk.inj (Option.some.inj hs)
        exact .draws clientId h_fresh
      · exact absurd hs (by simp)
  | settle call r =>
    obtain ⟨task, h_at, h_settle⟩ := Option.bind_eq_some_iff.mp hs
    split at h_settle
    · split at h_settle
      · obtain ⟨rfl, rfl⟩ := Prod.mk.inj (Option.some.inj h_settle)
        exact .fails
      · exact absurd h_settle (by simp)
    · obtain ⟨rfl, rfl⟩ := Prod.mk.inj (Option.some.inj h_settle)
      cases task with
      | deleting clientId persists => exact .sweeps _ h_at
      | sweeping clientId persists => exact .deleted h_at
      | hashing clientId secret => exact .stores h_at
      | savingSecret clientId secret => exact .regenerated h_at

/-- An operation that is suspended after a step was suspended there, or has just been. -/
theorem RegistrationShape.admin {s s' : RegistrationState} {l : RegistrationLabel}
    {o : RegistrationOut} (h : RegistrationShape env s l s' o) {call : ℕ} {task : AdminTask}
    (h_task : s'.admin.get? call = some task) :
    s.admin.get? call = some task ∨ o = .admin call (.await task) := by
  have h_set : ∀ {call' : ℕ} {task' : AdminTask},
      (s.admin.set call' task').get? call = some task →
        s.admin.get? call = some task ∨
          RegistrationOut.admin call' (.await task') = .admin call (.await task) := by
    intro call' task' h_get
    rcases Table.get?_set_eq_some h_get with ⟨rfl, rfl⟩ | ⟨-, h_old⟩
    · exact .inr rfl
    · exact .inl h_old
  cases h with
  | server => exact .inl h_task
  | deletes => exact h_set h_task
  | unknown => exact .inl h_task
  | draws => exact h_set h_task
  | fails => exact .inl (Table.get?_erase.mp h_task).1
  | sweeps => exact h_set h_task
  | deleted => exact .inl (Table.get?_erase.mp h_task).1
  | stores => exact h_set h_task
  | regenerated => exact .inl (Table.get?_erase.mp h_task).1

/-! ### Registrations -/

variable {s s' : RegistrationState} {l : RegistrationLabel} {o : RegistrationOut}

/-- A registration after a step was there before, or has just got its new secret. -/
theorem RegistrationShape.apps (h : RegistrationShape env s l s' o) {k : String}
    {rec : OidcClientRecord} (h_get : s'.server.oidc.apps.get? k = some rec) :
    s.server.oidc.apps.get? k = some rec ∨
      ∃ call secret old salt, s.admin.get? call = some (.hashing k secret) ∧
        s.server.oidc.apps.get? k = some old ∧
        rec = { old with secretHash := env.hash salt secret } ∧
        s'.hashes = env.hash salt secret :: s.hashes := by
  cases h with
  | server h_server => exact .inl ((server_step_shape h_server).apps ▸ h_get)
  | deletes => exact .inl (Table.get?_erase.mp h_get).1
  | unknown => exact .inl h_get
  | draws => exact .inl h_get
  | fails => exact .inl h_get
  | sweeps => exact .inl h_get
  | deleted => exact .inl h_get
  | regenerated => exact .inl h_get
  | @stores call r clientId secret h_at =>
    simp only [OidcStore.storeSecret, Table.get?_modify] at h_get
    obtain ⟨old, h_old, h_rec⟩ := Option.map_eq_some_iff.mp h_get
    split at h_rec
    · next h_key =>
      subst h_key
      exact .inr ⟨call, secret, old, r.salt, h_at, h_old, h_rec.symm, rfl⟩
    · exact .inl (h_rec ▸ h_old)

def Unregistered (clientId : String) (s : RegistrationState) : Prop :=
  s.server.oidc.apps.get? clientId = none

theorem Unregistered.step {clientId : String} (h : Unregistered clientId s)
    (hs : RegistrationShape env s l s' o) : Unregistered clientId s' := by
  refine Option.eq_none_iff_forall_not_mem.mpr fun rec h_rec => ?_
  have h_before : s.server.oidc.apps.get? clientId = none := h
  obtain h_old | ⟨_, _, old, _, -, h_old, -, -⟩ := hs.apps h_rec
  · exact absurd (h_before.symm.trans h_old) (by simp)
  · exact absurd (h_before.symm.trans h_old) (by simp)

/-! ### Secrets -/

/-- The hashes in use are known, and a secret that waits for its hash is unlike every
secret a known hash was made from. -/
structure SecretsInv (env : SecretEnv) (s : RegistrationState) : Prop where
  stored : ∀ k rec, s.server.oidc.apps.get? k = some rec → rec.secretHash ∈ s.hashes
  drawn : ∀ call c secret, s.admin.get? call = some (.hashing c secret) → secret ∈ s.secrets
  unlike : ∀ call c secret, s.admin.get? call = some (.hashing c secret) →
    ∀ h ∈ s.hashes, env.verify secret h = false
  distinct : ∀ call call' c c' secret, s.admin.get? call = some (.hashing c secret) →
    s.admin.get? call' = some (.hashing c' secret) → call = call'

/-- The known hashes are never forgotten. -/
theorem RegistrationShape.hashes (h : RegistrationShape env s l s' o) : s.hashes ⊆ s'.hashes := by
  cases h with
  | stores => exact List.subset_cons_self _ _
  | server => exact List.Subset.refl _
  | deletes => exact List.Subset.refl _
  | unknown => exact List.Subset.refl _
  | draws => exact List.Subset.refl _
  | fails => exact List.Subset.refl _
  | sweeps => exact List.Subset.refl _
  | deleted => exact List.Subset.refl _
  | regenerated => exact List.Subset.refl _

/-- The secrets that wait for their hashes after a step which draws none. -/
theorem RegistrationShape.hashing (h : RegistrationShape env s l s' o)
    (h_draws : ∀ call c secret, o ≠ .admin call (.await (.hashing c secret))) {call : ℕ}
    {c secret : String} (h_at : s'.admin.get? call = some (.hashing c secret)) :
    s.admin.get? call = some (.hashing c secret) := by
  obtain h_old | h_new := h.admin h_at
  · exact h_old
  · exact absurd h_new (h_draws call c secret)

/-- A step that neither draws nor stores a secret keeps the invariant. -/
theorem SecretsInv.of_quiet (hi : SecretsInv env s) (hs : RegistrationShape env s l s' o)
    (h_draws : ∀ call c secret, o ≠ .admin call (.await (.hashing c secret)))
    (h_secrets : s'.secrets = s.secrets) (h_hashes : s'.hashes = s.hashes) :
    SecretsInv env s' where
  stored k rec h_get := by
    rw [h_hashes]
    obtain h_old | ⟨_, _, _, _, -, -, -, h_grows⟩ := hs.apps h_get
    · exact hi.stored k rec h_old
    · have h_length := congrArg List.length (h_hashes.symm.trans h_grows)
      exact absurd h_length (by simp)
  drawn call c secret h_at := h_secrets ▸ hi.drawn call c secret (hs.hashing h_draws h_at)
  unlike call c secret h_at := h_hashes ▸ hi.unlike call c secret (hs.hashing h_draws h_at)
  distinct call call' c c' secret h_at h_at' :=
    hi.distinct call call' c c' secret (hs.hashing h_draws h_at) (hs.hashing h_draws h_at')

/-- A fresh secret waits for its hash. -/
theorem SecretsInv.draws (hi : SecretsInv env s) {clientId clientSecret : String}
    (h_fresh : s.Fresh env clientSecret) :
    SecretsInv env
      { s with
        admin := s.admin.set s.calls (.hashing clientId clientSecret)
        calls := s.calls + 1
        secrets := clientSecret :: s.secrets } := by
  have h_cases : ∀ {call c secret},
      (s.admin.set s.calls (.hashing clientId clientSecret)).get? call = some (.hashing c secret) →
        call = s.calls ∧ secret = clientSecret ∨
          s.admin.get? call = some (.hashing c secret) := by
    intro call c secret h_get
    rcases Table.get?_set_eq_some h_get with ⟨h_call, h_task⟩ | ⟨-, h_old⟩
    · obtain ⟨⟩ := h_task
      exact .inl ⟨h_call, rfl⟩
    · exact .inr h_old
  refine ⟨hi.stored, fun call c secret h_at => ?_, fun call c secret h_at => ?_,
    fun call call' c c' secret h_at h_at' => ?_⟩
  · obtain ⟨-, rfl⟩ | h_old := h_cases h_at
    · exact List.mem_cons_self
    · exact List.mem_cons_of_mem _ (hi.drawn call c secret h_old)
  · obtain ⟨-, rfl⟩ | h_old := h_cases h_at
    · exact h_fresh.2
    · exact hi.unlike call c secret h_old
  · obtain ⟨rfl, h_eq⟩ | h_old := h_cases h_at
    · obtain ⟨rfl, -⟩ | h_old' := h_cases h_at'
      · rfl
      · exact absurd (h_eq ▸ hi.drawn _ _ _ h_old') h_fresh.1
    · obtain ⟨rfl, h_eq⟩ | h_old' := h_cases h_at'
      · exact absurd (h_eq ▸ hi.drawn _ _ _ h_old) h_fresh.1
      · exact hi.distinct call call' c c' secret h_old h_old'

/-- A stored hash is unlike the secrets that still wait for theirs. -/
theorem SecretsInv.stores (h_hash : env.Verifies) (hi : SecretsInv env s) {call salt : ℕ}
    {clientId secret : String} (h_at : s.admin.get? call = some (.hashing clientId secret))
    {apps : Table String OidcClientRecord} {s' : RegistrationState}
    (h_apps : s'.server.oidc.apps = apps)
    (h_stored : ∀ k rec, apps.get? k = some rec →
      s.server.oidc.apps.get? k = some rec ∨ rec.secretHash = env.hash salt secret)
    (h_admin : s'.admin = s.admin.set call (.savingSecret clientId secret))
    (h_secrets : s'.secrets = s.secrets) (h_hashes : s'.hashes = env.hash salt secret :: s.hashes) :
    SecretsInv env s' := by
  have h_old : ∀ {call' c secret'}, s'.admin.get? call' = some (.hashing c secret') →
      call' ≠ call ∧ s.admin.get? call' = some (.hashing c secret') := by
    intro call' c secret' h_get
    rw [h_admin] at h_get
    rcases Table.get?_set_eq_some h_get with ⟨-, h_task⟩ | h_old
    · exact absurd h_task (by simp)
    · exact h_old
  refine ⟨fun k rec h_get => ?_, fun call' c secret' h_get => ?_,
    fun call' c secret' h_get h h_mem => ?_, fun call₁ call₂ c c' secret' h₁ h₂ => ?_⟩
  · rw [h_hashes]
    obtain h_before | h_new := h_stored k rec (h_apps ▸ h_get)
    · exact List.mem_cons_of_mem _ (hi.stored k rec h_before)
    · exact h_new ▸ List.mem_cons_self
  · exact h_secrets ▸ hi.drawn call' c secret' (h_old h_get).2
  · obtain ⟨h_ne, h_before⟩ := h_old h_get
    rw [h_hashes] at h_mem
    rcases List.mem_cons.mp h_mem with rfl | h_mem
    · refine Bool.eq_false_iff.mpr fun h_verify => h_ne ?_
      obtain rfl := (h_hash secret' salt secret).mp h_verify
      exact hi.distinct call' call c clientId secret' h_before h_at
    · exact hi.unlike call' c secret' h_before h h_mem
  · exact hi.distinct call₁ call₂ c c' secret' (h_old h₁).2 (h_old h₂).2

theorem SecretsInv.step (h_hash : env.Verifies) (hi : SecretsInv env s)
    (hs : RegistrationShape env s l s' o) : SecretsInv env s' := by
  have h_shape := hs
  cases hs with
  | server => exact hi.of_quiet h_shape (by simp) rfl rfl
  | deletes => exact hi.of_quiet h_shape (by simp) rfl rfl
  | unknown => exact hi.of_quiet h_shape (by simp) rfl rfl
  | draws clientId h_fresh => exact hi.draws h_fresh
  | fails => exact hi.of_quiet h_shape (by simp) rfl rfl
  | sweeps => exact hi.of_quiet h_shape (by simp) rfl rfl
  | deleted => exact hi.of_quiet h_shape (by simp) rfl rfl
  | regenerated => exact hi.of_quiet h_shape (by simp) rfl rfl
  | @stores call r clientId secret h_at =>
    refine hi.stores h_hash h_at rfl (fun k rec h_get => ?_) rfl rfl rfl
    obtain h_old | ⟨_, _, _, _, -, -, rfl, h_grows⟩ := h_shape.apps h_get
    · exact .inl h_old
    · exact .inr (List.cons.inj h_grows).1.symm

/-- A secret that some registration has had, and that none has any more. -/
structure Replaced (env : SecretEnv) (clientId secret : String) (s : RegistrationState) : Prop where
  used : ∃ h ∈ s.hashes, env.verify secret h = true
  refused : ∀ rec, s.server.oidc.apps.get? clientId = some rec →
    env.verify secret rec.secretHash = false

/-- A secret in use is not the one that is stored next. -/
theorem SecretsInv.verify_next (h_hash : env.Verifies) (hi : SecretsInv env s) {call salt : ℕ}
    {clientId next secret : String} (h_at : s.admin.get? call = some (.hashing clientId next))
    (h_used : ∃ h ∈ s.hashes, env.verify secret h = true) :
    env.verify secret (env.hash salt next) = false := by
  refine Bool.eq_false_iff.mpr fun h_verify => ?_
  obtain rfl := (h_hash secret salt next).mp h_verify
  obtain ⟨h, h_mem, h_true⟩ := h_used
  have h_false := hi.unlike call clientId secret h_at h h_mem
  exact absurd (h_false.symm.trans h_true) (by simp)

theorem Replaced.step (h_hash : env.Verifies) (hi : SecretsInv env s) {clientId secret : String}
    (h : Replaced env clientId secret s) (hs : RegistrationShape env s l s' o) :
    Replaced env clientId secret s' := by
  obtain ⟨h_stored, h_mem, h_verify⟩ := h.used
  refine ⟨⟨h_stored, hs.hashes h_mem, h_verify⟩, fun rec h_get => ?_⟩
  obtain h_old | ⟨call, next, old, salt, h_at, -, rfl, -⟩ := hs.apps h_get
  · exact h.refused rec h_old
  · exact hi.verify_next h_hash h_at h.used

/-! ### Token requests and their clients -/

/-- Registrations are filed under their ids, and a handler serves the client its request
names. -/
structure ClientsInv (s : RegistrationState) : Prop where
  ids : ∀ k rec, s.server.oidc.apps.get? k = some rec → rec.id = k
  named : ∀ t task c, s.server.tasks.get? t = some task → task.client? = some c →
    s.clientOf.get? t = some c

theorem ClientsInv.server (hi : ClientsInv s) {l : ServerLabel} {server : ServerState}
    {o : ServerOut} (h : ServerShape env.toOidcEnv s.server l server o) :
    ClientsInv { s with server := server, clientOf := s.named l o } := by
  refine ⟨fun k rec h_get => hi.ids k rec (h.apps ▸ h_get), fun t task c h_task h_client => ?_⟩
  cases h with
  | @aside l _ o h_apps h_tasks _ _ h_out h_label =>
    have h_same : s.named l o = s.clientOf := by
      unfold RegistrationState.named
      split
      · next h_token => exact absurd rfl (h_label _ _ _)
      · rfl
    dsimp only at h_task ⊢
    rw [h_same]
    exact hi.named t task c (h_tasks ▸ h_task) h_client
  | opens h_apps h_tasks =>
    dsimp only at h_task
    rw [h_tasks] at h_task
    rcases Table.get?_set_eq_some h_task with ⟨-, rfl⟩ | ⟨-, h_old⟩
    · exact absurd h_client (by simp [OidcTask.client?])
    · exact hi.named t task c h_old h_client
  | unknown => exact hi.named t task c h_task h_client
  | @arrives grant clientId secret client h_found =>
    dsimp only [RegistrationState.named] at h_task ⊢
    rcases Table.get?_set_eq_some h_task with ⟨rfl, rfl⟩ | ⟨h_ne, h_old⟩
    · obtain rfl : client.id = c := by simpa [OidcTask.client?] using h_client
      rw [Table.get?_set_self, hi.ids clientId client h_found]
    · rw [Table.get?_set_of_ne _ _ h_ne]
      exact hi.named t task c h_old h_client
  | @resumes t' _ before s₁ _ next h_at h_segment _ _ _ h_tasks =>
    have h_serves := continuation_serves h_segment
    dsimp only [RegistrationState.named] at h_task ⊢
    rw [h_tasks] at h_task
    obtain ⟨rfl, h_next⟩ | ⟨-, h_old⟩ := get?_after h_task
    · exact hi.named _ before c h_at (h_serves.client task c h_next h_client)
    · exact hi.named t task c (h_serves.tasks ▸ h_old) h_client

theorem ClientsInv.step (hi : ClientsInv s) (hs : RegistrationShape env s l s' o) :
    ClientsInv s' := by
  have h_ids : ∀ k rec, s'.server.oidc.apps.get? k = some rec → rec.id = k := by
    intro k rec h_get
    obtain h_old | ⟨_, _, old, _, -, h_old, rfl, -⟩ := hs.apps h_get
    · exact hi.ids k rec h_old
    · exact hi.ids k old h_old
  cases hs with
  | server h_server => exact hi.server (server_step_shape h_server)
  | deletes => exact ⟨h_ids, hi.named⟩
  | unknown => exact ⟨h_ids, hi.named⟩
  | draws => exact ⟨h_ids, hi.named⟩
  | fails => exact ⟨h_ids, hi.named⟩
  | sweeps => exact ⟨h_ids, hi.named⟩
  | deleted => exact ⟨h_ids, hi.named⟩
  | stores => exact ⟨h_ids, hi.named⟩
  | regenerated => exact ⟨h_ids, hi.named⟩

/-- Handler `t` exists or has existed, and serves a request that names a client. -/
def Names (t : ℕ) (clientId : String) (s : RegistrationState) : Prop :=
  t < s.server.calls ∧ s.clientOf.get? t = some clientId

theorem Names.server {t : ℕ} {clientId : String} (h : Names t clientId s) {l : ServerLabel}
    {server : ServerState} {o : ServerOut} (hs : ServerShape env.toOidcEnv s.server l server o) :
    Names t clientId { s with server := server, clientOf := s.named l o } := by
  obtain ⟨h_lt, h_get⟩ := h
  cases hs with
  | @aside l _ o h_apps h_tasks h_calls _ h_out h_label =>
    refine ⟨h_calls ▸ h_lt, ?_⟩
    unfold RegistrationState.named
    dsimp only
    split
    · exact absurd rfl (h_label _ _ _)
    · exact h_get
  | opens _ _ h_calls =>
    refine ⟨?_, h_get⟩
    dsimp only
    omega
  | unknown => exact ⟨h_lt, h_get⟩
  | arrives =>
    refine ⟨by dsimp only; omega, ?_⟩
    dsimp only [RegistrationState.named]
    rw [Table.get?_set_of_ne _ _ (Nat.ne_of_lt h_lt)]
    exact h_get
  | resumes _ h_segment _ _ h_calls =>
    refine ⟨?_, h_get⟩
    rw [h_calls, (continuation_serves h_segment).calls]
    exact h_lt

theorem Names.step {t : ℕ} {clientId : String} (h : Names t clientId s)
    (hs : RegistrationShape env s l s' o) : Names t clientId s' := by
  cases hs with
  | server h_server => exact h.server (server_step_shape h_server)
  | deletes => exact h
  | unknown => exact h
  | draws => exact h
  | fails => exact h
  | sweeps => exact h
  | deleted => exact h
  | stores => exact h
  | regenerated => exact h

/-! ### Deletions -/

/-- A client that is neither registered nor known to the refresh-token store. -/
structure Gone (clientId : String) (s : RegistrationState) : Prop where
  unregistered : Unregistered clientId s
  rows : ∀ k rec, s.server.refresh.tokens.get? k = some rec → rec.clientId ≠ clientId

theorem Gone.not_has {clientId : String} (h : Gone clientId s) :
    s.server.oidc.apps.has clientId = false := by
  have h_none : s.server.oidc.apps.get? clientId = none := h.unregistered
  rw [Table.has, h_none]
  rfl

/-- A handler that issues tokens does so for a registered client. -/
theorem Gone.server {clientId : String} (h : Gone clientId s) (hi : ClientsInv s) {l : ServerLabel}
    {server : ServerState} {o : ServerOut} (hs : ServerShape env.toOidcEnv s.server l server o)
    (h_ok : ClientStands env s (.server l)) :
    Gone clientId { s with server := server, clientOf := s.named l o } := by
  have h_unregistered : server.oidc.apps.get? clientId = none := by
    rw [hs.apps]
    exact h.unregistered
  refine ⟨h_unregistered, ?_⟩
  cases hs with
  | aside _ _ _ h_rows => exact fun k rec h_get => h.rows k rec (h_rows k rec h_get)
  | opens _ _ _ h_rows => exact fun k rec h_get => h.rows k rec (h_rows k rec h_get)
  | unknown => exact h.rows
  | arrives => exact h.rows
  | @resumes t i task s₁ _ next h_at h_segment _ h_refresh =>
    intro k rec h_get h_client
    dsimp only at h_get
    rw [h_refresh] at h_get
    obtain ⟨k', rec', h_old, h_eq⟩ | ⟨userId, scope, rfl⟩ :=
      (continuation_serves h_segment).rows k rec h_get
    · exact h.rows k' rec' h_old (h_eq.trans h_client)
    · have h_named := hi.named t _ rec.clientId h_at rfl
      rw [h_client] at h_named
      obtain h_has | h_wrong := h_ok clientId h_named
      · exact absurd h_has (by simp [h.not_has])
      · rw [h_at] at h_wrong
        exact absurd h_wrong (by simp [wrongSecret])

theorem Gone.step {clientId : String} (h : Gone clientId s) (hi : ClientsInv s)
    (hs : RegistrationShape env s l s' o) (h_ok : ClientStands env s l) : Gone clientId s' := by
  have h_unregistered := h.unregistered.step hs
  cases hs with
  | server h_server => exact h.server hi (server_step_shape h_server) h_ok
  | sweeps =>
    exact ⟨h_unregistered, fun k rec h_get =>
      h.rows k rec (RefreshTokenStore.get?_revokeWhere.mp h_get).1⟩
  | deletes => exact ⟨h_unregistered, h.rows⟩
  | unknown => exact ⟨h_unregistered, h.rows⟩
  | draws => exact ⟨h_unregistered, h.rows⟩
  | fails => exact ⟨h_unregistered, h.rows⟩
  | deleted => exact ⟨h_unregistered, h.rows⟩
  | stores => exact ⟨h_unregistered, h.rows⟩
  | regenerated => exact ⟨h_unregistered, h.rows⟩

/-- A deletion under way has removed the registration, and after its sweep the rows. -/
structure DeletionsInv (s : RegistrationState) : Prop where
  deleting : ∀ call c persists, s.admin.get? call = some (.deleting c persists) → Unregistered c s
  sweeping : ∀ call c persists, s.admin.get? call = some (.sweeping c persists) → Gone c s

/-- The sweep of `deleteClient` removes every row of the client. -/
theorem Gone.of_sweep {clientId : String} (h : Unregistered clientId s) {s' : RegistrationState}
    (h_apps : s'.server.oidc.apps = s.server.oidc.apps)
    (h_refresh : s'.server.refresh = (s.server.refresh.revokeForClient clientId).store) :
    Gone clientId s' := by
  refine ⟨?_, fun k rec h_get h_client => ?_⟩
  · unfold Unregistered
    rw [h_apps]
    exact h
  · rw [h_refresh] at h_get
    have h_spared := (RefreshTokenStore.get?_revokeWhere.mp h_get).2
    exact absurd h_client (by simpa using h_spared)

theorem DeletionsInv.step (hi : DeletionsInv s) (h_clients : ClientsInv s)
    (hs : RegistrationShape env s l s' o) (h_ok : ClientStands env s l) : DeletionsInv s' := by
  constructor
  · intro call c persists h_at
    obtain h_old | rfl := hs.admin h_at
    · exact (hi.deleting call c persists h_old).step hs
    · cases hs with
      | deletes => exact Table.get?_erase_self _ _
  · intro call c persists h_at
    obtain h_old | rfl := hs.admin h_at
    · exact (hi.sweeping call c persists h_old).step h_clients hs h_ok
    · cases hs with
      | sweeps _ h_deleting => exact .of_sweep (hi.deleting _ _ _ h_deleting) rfl rfl

/-! ### Runs -/

/-- The invariants of a run. -/
structure RegistrationInv (env : SecretEnv) (s : RegistrationState) : Prop where
  clients : ClientsInv s
  secrets : SecretsInv env s
  deletions : DeletionsInv s

variable {start : RegistrationStart} {tr pre post : RegistrationTrace}

theorem registrationInv_init : RegistrationInv env (registrationMachine env start).init where
  clients := {
    ids := start.ids
    named := fun t task c h => absurd h (by simp [registrationMachine, ServerState.loaded]) }
  secrets := {
    stored := fun k rec h =>
      List.mem_map.mpr ⟨rec, Table.get?_of_mem_values.mpr ⟨k, h⟩, rfl⟩
    drawn := fun call c secret h => absurd h (by simp [registrationMachine])
    unlike := fun call c secret h => absurd h (by simp [registrationMachine])
    distinct := fun call call' c c' secret h => absurd h (by simp [registrationMachine]) }
  deletions := ⟨fun call c persists h => absurd h (by simp [registrationMachine]),
    fun call c persists h => absurd h (by simp [registrationMachine])⟩

theorem registrationInv_run (h_hash : env.Verifies)
    (h : (registrationMachine env start).RunWhen (ClientStands env) tr s) :
    RegistrationInv env s :=
  h.invariant registrationInv_init fun _ _ _ _ hi h_ok hs =>
    have h_shape := registration_step_shape hs
    ⟨hi.clients.step h_shape, hi.secrets.step h_hash h_shape,
      hi.deletions.step hi.clients h_shape h_ok⟩

/-- The secrets are in order along every run. -/
theorem secretsInv_run (h_hash : env.Verifies) (h : (registrationMachine env start).Run tr s) :
    SecretsInv env s :=
  h.invariant registrationInv_init.secrets fun _ _ _ _ hi _ hs =>
    hi.step h_hash (registration_step_shape hs)

/-- A client whose deletion has completed is gone. -/
theorem gone_of_deletedIn (h_hash : env.Verifies)
    (h : (registrationMachine env start).RunWhen (ClientStands env) tr s) {clientId : String}
    (h_deleted : DeletedIn tr clientId) : Gone clientId s := by
  refine h.history (P := fun tr s => DeletedIn tr clientId → Gone clientId s)
    (fun ⟨_, _, h_mem⟩ => absurd h_mem (by simp))
    (fun tr s l s' o h_run ih h_ok hs ⟨l', call, h_mem⟩ => ?_) h_deleted
  have hi := registrationInv_run h_hash h_run
  have h_shape := registration_step_shape hs
  rcases List.mem_append.mp h_mem with h_before | h_now
  · exact (ih ⟨l', call, h_before⟩).step hi.clients h_shape h_ok
  · obtain ⟨rfl, rfl⟩ : l' = l ∧ .admin call (.deleted clientId) = o := by simpa using h_now
    cases h_shape with
    | deleted h_at =>
      have h_gone := hi.deletions.sweeping call clientId _ h_at
      exact ⟨h_gone.unregistered, h_gone.rows⟩

/-- A handler that was opened for a client serves it. -/
theorem names_of_requestedIn (h : (registrationMachine env start).Run tr s) {t : ℕ}
    {clientId : String} (h_requested : RequestedIn tr t clientId) : Names t clientId s := by
  refine h.history (P := fun tr s => RequestedIn tr t clientId → Names t clientId s)
    (fun ⟨_, _, _, h_mem⟩ => absurd h_mem (by simp))
    (fun tr s l s' o _ ih _ hs ⟨grant, secret, w, h_mem⟩ => ?_) h_requested
  have h_shape := registration_step_shape hs
  rcases List.mem_append.mp h_mem with h_before | h_now
  · exact (ih ⟨grant, secret, w, h_before⟩).step h_shape
  · obtain ⟨rfl, rfl⟩ : .server (.token grant clientId secret) = l ∧
        .server (.handler t (.await w)) = o := by simpa using h_now
    cases h_shape with
    | server h_server =>
      cases server_step_shape h_server with
      | aside _ _ _ _ h_out => exact absurd rfl (h_out _ _)
      | arrives =>
        exact ⟨Nat.lt_succ_self _, Table.get?_set_self _ _ _⟩

/-- A handler that can only refuse does so when it goes on. -/
theorem continuation_rejected {server s₁ : ServerState} {task : OidcTask} {i : OidcInput}
    {next : OidcNext} (h_wrong : wrongSecret env task = true)
    (h_segment : server.continuation env.toOidcEnv i task = (s₁, next)) :
    next = .refused "invalid_client" := by
  unfold wrongSecret at h_wrong
  split at h_wrong
  · rw [continuation_wrong_secret (by simpa using h_wrong)] at h_segment
    exact (congrArg Prod.snd h_segment).symm
  · exact absurd h_wrong (by simp)

/-- A response with tokens comes from a handler that went on for a registered client. -/
theorem Gone.no_tokens {clientId : String} {t : ℕ} {refreshToken : Option String}
    (h : Gone clientId s) (h_names : Names t clientId s)
    (hs : RegistrationShape env s l s' (.server (.handler t (.tokens refreshToken))))
    (h_ok : ClientStands env s l) : False := by
  cases hs with
  | server h_server =>
    cases server_step_shape h_server with
    | aside _ _ _ _ h_out => exact h_out _ _ rfl
    | resumes h_at h_segment =>
      obtain h_has | h_wrong := h_ok clientId h_names.2
      · exact absurd h_has (by simp [h.not_has])
      · rw [h_at, Option.any_some] at h_wrong
        exact absurd (continuation_rejected h_wrong h_segment) (by simp)

/-- A secret that was replaced is refused from then on. -/
theorem replaced_of_replacedIn (h_hash : env.Verifies)
    (h : (registrationMachine env start).Run tr s) {clientId secret : String}
    (h_replaced : ReplacedIn env start tr clientId secret) : Replaced env clientId secret s := by
  obtain ⟨pre, call, next, l, post, rfl, -, before, m, rec, ⟨mid, rfl⟩, h_before, h_rec, h_verify⟩ :=
    h_replaced
  obtain ⟨m₁, m₂, h_pre, -, hs, h_mid, h_post⟩ := h.split_step
  have h_shape := registration_step_shape hs
  have h_secrets := secretsInv_run h_hash h_pre
  -- the hash that verified it is still known
  have h_used : ∃ h ∈ m₁.hashes, env.verify secret h = true := by
    obtain ⟨m', h_before', h_steps⟩ := h_pre.split
    obtain rfl := h_before.state_unique h_before'
    have h_mem := (secretsInv_run h_hash h_before).stored clientId rec h_rec
    exact h_steps.stable (P := fun s => ∃ h ∈ s.hashes, env.verify secret h = true)
      (fun _ _ _ _ ⟨h, h_mem, h_true⟩ _ hs =>
        ⟨h, (registration_step_shape hs).hashes h_mem, h_true⟩)
      ⟨_, h_mem, h_verify⟩
  have h_now : Replaced env clientId secret m₂ := by
    obtain ⟨h_hash', h_mem, h_true⟩ := h_used
    refine ⟨⟨h_hash', h_shape.hashes h_mem, h_true⟩, fun rec' h_rec' => ?_⟩
    cases h_shape with
    | stores h_at =>
      simp only [OidcStore.storeSecret, Table.get?_modify, if_true] at h_rec'
      obtain ⟨old, -, rfl⟩ := Option.map_eq_some_iff.mp h_rec'
      exact h_secrets.verify_next h_hash h_at ⟨h_hash', h_mem, h_true⟩
  have h_both : Replaced env clientId secret s ∧ SecretsInv env s :=
    h_post.stable (P := fun s => Replaced env clientId secret s ∧ SecretsInv env s)
      (fun _ _ _ _ ⟨h_replaced, hi⟩ _ hs =>
        have h_shape := registration_step_shape hs
        ⟨h_replaced.step h_hash hi h_shape, hi.step h_hash h_shape⟩)
      ⟨h_now, secretsInv_run h_hash h_mid⟩
  exact h_both.1

/-! ### Requests that are refused -/

/-- Handler `t` exists or has existed, and it can only refuse its client. -/
def Rejected (env : SecretEnv) (t : ℕ) (s : RegistrationState) : Prop :=
  t < s.server.calls ∧
    ∀ task, s.server.tasks.get? t = some task → wrongSecret env task = true

theorem Rejected.server {t : ℕ} (h : Rejected env t s) {l : ServerLabel} {server : ServerState}
    {o : ServerOut} (hs : ServerShape env.toOidcEnv s.server l server o) :
    Rejected env t { s with server := server, clientOf := s.named l o } ∧
      ∀ next, o = .handler t next → next = .refused "invalid_client" := by
  obtain ⟨h_lt, h_task⟩ := h
  cases hs with
  | aside _ h_tasks h_calls _ h_out =>
    exact ⟨⟨h_calls ▸ h_lt, fun task h_get => h_task task (h_tasks ▸ h_get)⟩,
      fun next h_eq => absurd h_eq (h_out t next)⟩
  | opens _ h_tasks h_calls =>
    refine ⟨⟨by dsimp only; omega, fun task h_get => ?_⟩, fun next h_eq => ?_⟩
    · dsimp only at h_get
      rw [h_tasks, Table.get?_set_of_ne _ _ (Nat.ne_of_lt h_lt)] at h_get
      exact h_task task h_get
    · obtain ⟨⟩ := h_eq
      exact absurd h_lt (Nat.lt_irrefl _)
  | unknown =>
    refine ⟨⟨h_lt, h_task⟩, fun next h_eq => ?_⟩
    obtain ⟨⟩ := h_eq
    rfl
  | arrives =>
    refine ⟨⟨by dsimp only; omega, fun task h_get => ?_⟩, fun next h_eq => ?_⟩
    · dsimp only at h_get
      rw [Table.get?_set_of_ne _ _ (Nat.ne_of_lt h_lt)] at h_get
      exact h_task task h_get
    · obtain ⟨⟩ := h_eq
      exact absurd h_lt (Nat.lt_irrefl _)
  | resumes h_at h_segment _ _ h_calls h_tasks =>
    have h_serves := continuation_serves h_segment
    refine ⟨⟨?_, fun task h_get => ?_⟩, fun next h_eq => ?_⟩
    · rw [h_calls, h_serves.calls]
      exact h_lt
    · dsimp only at h_get
      rw [h_tasks] at h_get
      obtain ⟨rfl, h_next⟩ | ⟨-, h_old⟩ := get?_after h_get
      · have h_refused := continuation_rejected (h_task _ h_at) h_segment
        exact absurd (h_next.symm.trans h_refused) (by simp)
      · exact h_task task (h_serves.tasks ▸ h_old)
    · obtain ⟨⟩ := h_eq
      exact continuation_rejected (h_task _ h_at) h_segment

theorem Rejected.step {t : ℕ} (h : Rejected env t s) (hs : RegistrationShape env s l s' o) :
    Rejected env t s' ∧
      ∀ next, o = .server (.handler t next) → next = .refused "invalid_client" := by
  cases hs with
  | server h_server =>
    obtain ⟨h_next, h_out⟩ := h.server (server_step_shape h_server)
    exact ⟨h_next, fun next h_eq => h_out next (RegistrationOut.server.inj h_eq)⟩
  | deletes => exact ⟨h, by simp⟩
  | unknown => exact ⟨h, by simp⟩
  | draws => exact ⟨h, by simp⟩
  | fails => exact ⟨h, by simp⟩
  | sweeps => exact ⟨h, by simp⟩
  | deleted => exact ⟨h, by simp⟩
  | stores => exact ⟨h, by simp⟩
  | regenerated => exact ⟨h, by simp⟩

theorem Rejected.onlyRefuses {ok : RegistrationState → RegistrationLabel → Prop} {t : ℕ}
    (h : Rejected env t s) (h_post : (registrationMachine env start).Steps ok s post s') :
    OnlyRefuses post t := by
  have h_both : Rejected env t s' ∧ OnlyRefuses post t := by
    induction h_post with
    | nil => exact ⟨h, fun _ _ h_mem => absurd h_mem (by simp)⟩
    | snoc _ _ hs ih =>
      obtain ⟨h_next, h_out⟩ := ih.1.step (registration_step_shape hs)
      refine ⟨h_next, fun l next h_mem => ?_⟩
      rcases List.mem_append.mp h_mem with h_before | h_now
      · exact ih.2 l next h_before
      · exact h_out next (Prod.mk.inj (List.mem_singleton.mp h_now)).2.symm
  exact h_both.2

/-- A request that presents a replaced secret is turned away, or its handler can only refuse
it. -/
theorem Replaced.arrival {clientId secret : String} (h : Replaced env clientId secret s)
    {grant : GrantRequest} {t : ℕ} {next : OidcNext}
    (hs : RegistrationShape env s (.server (.token grant clientId secret)) s'
      (.server (.handler t next))) :
    next = .refused "invalid_client" ∨ (∃ w, next = .await w) ∧ Rejected env t s' := by
  cases hs with
  | server h_server =>
    cases server_step_shape h_server with
    | aside _ _ _ _ h_out => exact absurd rfl (h_out _ _)
    | unknown => exact .inl rfl
    | @arrives _ _ _ client h_client =>
      refine .inr ⟨⟨_, rfl⟩, Nat.lt_succ_self _, fun task h_get => ?_⟩
      dsimp only at h_get
      rw [Table.get?_set_self] at h_get
      obtain rfl := Option.some.inj h_get
      have h_refused := h.refused client h_client
      simp [wrongSecret, h_refused]

/-- The deletions of a run in which handlers go on for registered clients only. -/
theorem deletions_safe (h_hash : env.Verifies)
    (h : (registrationMachine env start).RunWhen (ClientStands env) tr s) :
    DeletionsSafe tr s where
  swept _ h_deleted := (gone_of_deletedIn h_hash h h_deleted).rows
  silent := by
    rintro pre l t refreshToken post clientId rfl h_requested h_deleted
    obtain ⟨m, m', h_pre, h_ok, hs, -, -⟩ := h.split_step
    have h_gone := gone_of_deletedIn h_hash h_pre h_deleted
    have h_names := names_of_requestedIn h_pre.run h_requested
    exact h_gone.no_tokens h_names (registration_step_shape hs) h_ok

/-- The replaced secrets of a run. -/
theorem replacements_safe (h_hash : env.Verifies) (h : (registrationMachine env start).Run tr s) :
    ReplacementsSafe env start tr := by
  rintro pre grant clientId secret t next post rfl h_replaced
  obtain ⟨m, m', h_pre, -, hs, -, h_post⟩ := h.split_step
  have h_dead := replaced_of_replacedIn h_hash h_pre h_replaced
  obtain h_refused | ⟨h_await, h_rejected⟩ := h_dead.arrival (registration_step_shape hs)
  · exact .inl h_refused
  · exact .inr ⟨h_await, h_rejected.onlyRefuses h_post⟩

/-- **Registrations are revoked**: in every run a replaced secret opens nothing, and in every
run in which the handlers of token requests go on for registered clients only, a deleted
client has no token and gets none. -/
theorem registration_safe (env : SecretEnv) (h_hash : env.Verifies) (start : RegistrationStart)
    {tr : RegistrationTrace} {s : RegistrationState}
    (h : (registrationMachine env start).Run tr s) :
    ReplacementsSafe env start tr ∧
      ((registrationMachine env start).RunWhen (ClientStands env) tr s → DeletionsSafe tr s) :=
  ⟨replacements_safe h_hash h, fun h_when => deletions_safe h_hash h_when⟩

/-! ### A deletion that is overtaken -/

/-- Hashing leaves the secret as it is. -/
def plainSecrets : SecretEnv := { plainEnv with hash := fun _ secret => secret }

theorem plainSecrets_verifies : plainSecrets.Verifies := fun x _ y => by
  simp [plainSecrets, plainEnv]

/-- `ann` has an account, and `notes` is registered. -/
def notesStart : RegistrationStart where
  auth := annStore
  apps := notesApp
  refresh := ⟨.empty⟩
  ids k rec h := by
    rcases Table.get?_set_eq_some h with ⟨rfl, rfl⟩ | ⟨-, h_empty⟩
    · rfl
    · exact absurd h_empty (by simp)

/-- What is read off a step of the runs below. -/
inductive Shown where
  | requested (task : ℕ) (clientId : String)
  | answered (task : ℕ) (refreshToken : Option String)
  | refused (task : ℕ) (error : String)
  | deleted (clientId : String)
  | other
  deriving DecidableEq

def shown : RegistrationLabel × RegistrationOut → Shown
  | (.server (.token _ clientId _), .server (.handler task (.await _))) => .requested task clientId
  | (_, .server (.handler task (.tokens refreshToken))) => .answered task refreshToken
  | (_, .server (.handler task (.refused error))) => .refused task error
  | (_, .admin _ (.deleted clientId)) => .deleted clientId
  | _ => .other

theorem requestedIn_of_shown {tr : RegistrationTrace} {t : ℕ} {clientId : String}
    (h : Shown.requested t clientId ∈ tr.map shown) : RequestedIn tr t clientId := by
  obtain ⟨⟨l, o⟩, h_mem, h_shown⟩ := List.mem_map.mp h
  unfold shown at h_shown
  split at h_shown
  · next grant c secret t' w h_eq =>
    obtain ⟨rfl, rfl⟩ := Shown.requested.inj h_shown
    exact ⟨grant, secret, w, h_eq ▸ h_mem⟩
  all_goals exact absurd h_shown (by simp)

theorem deletedIn_of_shown {tr : RegistrationTrace} {clientId : String}
    (h : Shown.deleted clientId ∈ tr.map shown) : DeletedIn tr clientId := by
  obtain ⟨⟨l, o⟩, h_mem, h_shown⟩ := List.mem_map.mp h
  unfold shown at h_shown
  split at h_shown
  case h_4 l' call c h_eq =>
    obtain rfl := Shown.deleted.inj h_shown
    exact ⟨l', call, h_eq ▸ h_mem⟩
  all_goals exact absurd h_shown (by simp)

theorem eq_of_shown_answered {x : RegistrationLabel × RegistrationOut} {t : ℕ}
    {refreshToken : Option String} (h : shown x = .answered t refreshToken) :
    x.2 = .server (.handler t (.tokens refreshToken)) := by
  unfold shown at h
  split at h
  case h_2 =>
    obtain ⟨rfl, rfl⟩ := Shown.answered.inj h
    rfl
  all_goals exact absurd h (by simp)

/-- The secret is replaced, a request presents the old one, and the client is deleted. -/
def revokedRun : List RegistrationLabel :=
  [.regenerateSecret "notes" "another", .settle 0 ⟨none, 0⟩, .settle 0 ⟨none, 0⟩,
    .server (.token (.refreshToken "stolen") "notes" "secret"),
    .server (.resume 0 (drawing "a")),
    .deleteClient "notes", .settle 1 ⟨none, 0⟩, .settle 1 ⟨none, 0⟩]

theorem registration_safe_sample : ∃ tr s,
    (registrationMachine plainSecrets notesStart).RunWhen (ClientStands plainSecrets) tr s ∧
      .refused 0 "invalid_client" ∈ tr.map shown ∧ DeletedIn tr "notes" ∧
        ReplacementsSafe plainSecrets notesStart tr ∧ DeletionsSafe tr s := by
  have h_exec : ((registrationMachine plainSecrets notesStart).exec
      (registrationMachine plainSecrets notesStart).init revokedRun).map
        (fun q => q.1.map shown) =
      some [.other, .other, .other, .requested 0 "notes", .refused 0 "invalid_client", .other,
        .other, .deleted "notes"] := by decide +kernel
  obtain ⟨⟨tr, s⟩, h_exec, h_shown⟩ := Option.map_eq_some_iff.mp h_exec
  have h_run : (registrationMachine plainSecrets notesStart).RunWhen (ClientStands plainSecrets)
      tr s := Machine.runWhen_of_exec revokedRun h_exec (by decide +kernel)
  have h_shown : tr.map shown = _ := h_shown
  obtain ⟨h_replacements, h_deletions⟩ :=
    registration_safe plainSecrets plainSecrets_verifies notesStart h_run.run
  exact ⟨tr, s, h_run, by simp [h_shown], deletedIn_of_shown (by simp [h_shown]), h_replacements,
    h_deletions h_run⟩

/-- `ann` authorizes `notes`, which exchanges the code; the client is deleted while the
handler reads the configuration. -/
def overtakenRun : List RegistrationLabel :=
  [.server logIn, .server (fulfilled 0 "session"), .server authorize,
    .server (.resume 0 (drawing "code")),
    .server (.token (.authorizationCode "code" "https://notes" "v") "notes" "secret"),
    .server (.resume 1 (drawing "a")),
    .deleteClient "notes", .settle 0 ⟨none, 0⟩, .settle 0 ⟨none, 0⟩,
    .server (.resume 1 (drawing "token")), .server (.resume 1 (drawing "b"))]

/-- **A deletion is overtaken**: it has completed and every handler has finished, but the
store holds a live token for the client, issued after the deletion and sent to it. -/
theorem deletion_overtaken : ∃ tr s,
    (registrationMachine plainSecrets notesStart).Run tr s ∧
      s.server.tasks.keys = [] ∧ DeletedIn tr "notes" ∧
      (∃ rec, s.server.refresh.tokens.get? "token" = some rec ∧ rec.clientId = "notes" ∧
        rec.usedAt = none) ∧
      ∃ pre l, tr = pre ++ [(l, .server (.handler 1 (.tokens (some "token"))))] ∧
        RequestedIn pre 1 "notes" ∧ DeletedIn pre "notes" := by
  have h_exec : ((registrationMachine plainSecrets notesStart).exec
      (registrationMachine plainSecrets notesStart).init overtakenRun).map
        (fun q => (q.1.map shown, q.2.server.tasks.keys,
          (q.2.server.refresh.tokens.get? "token").map fun rec => (rec.clientId, rec.usedAt))) =
      some ([.other, .other, .other, .other, .requested 1 "notes", .other, .other, .other,
        .deleted "notes", .other] ++ [.answered 1 (some "token")], [], some ("notes", none)) := by
    decide +kernel
  obtain ⟨⟨tr, s⟩, h_exec, h_read⟩ := Option.map_eq_some_iff.mp h_exec
  obtain ⟨h_shown, h_read⟩ := Prod.mk.inj h_read
  obtain ⟨h_tasks, h_row⟩ := Prod.mk.inj h_read
  obtain ⟨rec, h_get, h_rec⟩ := Option.map_eq_some_iff.mp h_row
  obtain ⟨h_client, h_used⟩ := Prod.mk.inj h_rec
  obtain ⟨pre, last, rfl, h_pre, h_last⟩ := List.map_eq_append_iff.mp h_shown
  obtain ⟨⟨l, o⟩, rest, rfl, h_answer, h_rest⟩ := List.map_eq_cons_iff.mp h_last
  obtain rfl := List.map_eq_nil_iff.mp h_rest
  obtain rfl := eq_of_shown_answered h_answer
  have h_deleted : DeletedIn pre "notes" := deletedIn_of_shown (by simp [h_pre])
  obtain ⟨l', call, h_mem⟩ := h_deleted
  exact ⟨_, s, Machine.run_of_exec overtakenRun h_exec, h_tasks,
    ⟨l', call, List.mem_append_left _ h_mem⟩, ⟨rec, h_get, h_client, h_used⟩,
    pre, l, rfl, requestedIn_of_shown (by simp [h_pre]), ⟨l', call, h_mem⟩⟩

end ServerCentral.Oidc
