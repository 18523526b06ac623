import ServerCentral.Settings.Config

/-!
# What overlapping updates of the settings keep

What a suspended operation holds agrees with the file (`SettingsTask.Agrees`), and each of
the two applied lists is the one built from the file or is about to be applied
(`SettingsInv`). A write keeps this when no other operation relies on the setting it
changes.
-/

open Framework

namespace ServerCentral.Settings

/-! ### The setters -/

/-- Carrying forward once is enough. -/
theorem Config.carried_carried (c : Config) : c.carried.carried = c.carried := by
  by_cases h : truthy c.primaryUrl = none ∧ truthy c.issuerUrl ≠ none
  · have h_eq : c.carried = { c with primaryUrl := c.issuerUrl } := if_pos h
    rw [h_eq]
    exact if_neg fun h' => h.2 h'.1
  · have h_eq : c.carried = c := if_neg h
    rw [h_eq, h_eq]

theorem readConfig_carried (file : Option Config) :
    (readConfig file).carried = readConfig file := by
  cases file with
  | none => rfl
  | some c => exact c.carried_carried

namespace Change

/-- A setter leaves the other settings alone. -/
theorem get_apply_of_ne (change : Change) (c : Config) {key : SettingKey} (h : key ≠ change.key) :
    (change.apply c).get key = c.get key := by
  cases change <;> cases key <;> first | rfl | exact absurd rfl h

theorem get_apply_self (change : Change) (c : Config) :
    (change.apply c).get change.key = change.value := by
  cases change with
  | domain => rfl
  | primaryUrl => rfl
  | trustedProxies entries => cases entries <;> rfl
  | allowedOrigins origins => cases origins <;> rfl

/-- Nothing is left to carry forward after a setter. -/
theorem carried_apply (change : Change) {c : Config} (h : c.carried = c) :
    (change.apply c).carried = change.apply c := by
  -- the two names of the primary URL are as in `c`, or the older one is gone
  have h_kept : ∀ c' : Config, c'.primaryUrl = c.primaryUrl → c'.issuerUrl = c.issuerUrl →
      c'.carried = c' := by
    intro c' h_url h_issuer
    refine if_neg fun ⟨h_none, h_some⟩ => ?_
    rw [h_url] at h_none
    rw [h_issuer] at h_some
    rw [Config.carried, if_pos ⟨h_none, h_some⟩] at h
    have h_eq : c.issuerUrl = c.primaryUrl := congrArg Config.primaryUrl h
    exact h_some (h_eq ▸ h_none)
  cases change with
  | primaryUrl => exact if_neg fun h' => h'.2 rfl
  | domain => exact h_kept _ rfl rfl
  | trustedProxies => exact h_kept _ rfl rfl
  | allowedOrigins => exact h_kept _ rfl rfl

/-- What a call of a setter was given fits the file: the origins read before, and a URL that
the setter stores as it is. -/
def Agrees (change : Change) (d : Config) : Prop :=
  match change with
  | .primaryUrl next origins =>
    (truthy next).map stripSlashes = next ∧ d.get .allowedOrigins = .origins origins
  | _ => True

end Change

variable {Origins Proxies : Type} {env : SettingsEnv Origins Proxies}

/-- `normalizeUrl` returns URLs that are stored as they are. -/
theorem nextUrl_bare {primaryUrl next : Option String} (h : nextUrl env primaryUrl = .ok next) :
    (truthy next).map stripSlashes = next := by
  unfold nextUrl at h
  split at h
  · next url _ =>
    cases h_norm : env.normalizeUrl url "Primary URL" with
    | error message =>
      rw [h_norm] at h
      exact absurd h (by simp [Except.map])
    | ok o =>
      rw [h_norm] at h
      obtain rfl := Except.ok.inj h
      obtain ⟨h_ne, h_strip⟩ := env.origin _ _ _ h_norm
      have h_truthy : truthy (some o) = some o := by simp [truthy, h_ne]
      rw [h_truthy, Option.map_some, h_strip]
  · obtain rfl := Except.ok.inj h
    rfl

/-! ### What a suspended operation holds -/

namespace SettingsTask

def Agrees (t : SettingsTask) (d : Config) : Prop :=
  match t with
  | .checking _ _ => True
  | .loading change => change.Agrees d
  | .writing change config =>
    change.Agrees d ∧ config.carried = config ∧ config.get change.key = change.value ∧
      ∀ key, key ≠ change.key → config.get key = d.get key
  | .reloading origins => d.get .allowedOrigins = .origins origins
  | .applyingOrigins _ origins primaryUrl =>
    d.get .allowedOrigins = .origins origins ∧ d.get .primaryUrl = .text primaryUrl
  | .applyingProxies entries => d.get .trustedProxies = .proxies entries

/-- It stays so when a setting changes that the operation does not rely on. -/
theorem Agrees.of_get {t : SettingsTask} {d d' : Config} {key : SettingKey} (h : t.Agrees d)
    (h_free : t.reliesOn key = false) (h_get : ∀ k, k ≠ key → d'.get k = d.get k) :
    t.Agrees d' := by
  cases t with
  | checking => exact trivial
  | loading change =>
    cases change with
    | primaryUrl next origins =>
      have h_ne : SettingKey.allowedOrigins ≠ key := by
        rintro rfl
        simp [reliesOn] at h_free
      exact ⟨h.1, (h_get _ h_ne).trans h.2⟩
    | domain | trustedProxies | allowedOrigins => exact trivial
  | writing change config =>
    have h_key : key = change.key := by simpa [reliesOn] using h_free
    obtain ⟨h_change, h_carried, h_self, h_rest⟩ := h
    refine ⟨?_, h_carried, h_self, fun k hk => ?_⟩
    · cases change with
      | primaryUrl next origins =>
        have h_ne : SettingKey.allowedOrigins ≠ key := by
          rw [h_key]
          exact (by rintro ⟨⟩)
        exact ⟨h_change.1, (h_get _ h_ne).trans h_change.2⟩
      | domain | trustedProxies | allowedOrigins => exact trivial
    · rw [h_rest k hk, h_get k (h_key ▸ hk)]
  | reloading origins =>
    have h_ne : SettingKey.allowedOrigins ≠ key := by
      rintro rfl
      simp [reliesOn] at h_free
    exact (h_get _ h_ne).trans h
  | applyingOrigins k origins primaryUrl =>
    have h_ne : SettingKey.allowedOrigins ≠ key ∧ SettingKey.primaryUrl ≠ key := by
      constructor <;> (rintro rfl; simp [reliesOn] at h_free)
    exact ⟨(h_get _ h_ne.1).trans h.1, (h_get _ h_ne.2).trans h.2⟩
  | applyingProxies entries =>
    have h_ne : SettingKey.trustedProxies ≠ key := by
      rintro rfl
      simp [reliesOn] at h_free
    exact (h_get _ h_ne).trans h

/-- The operation will apply the allowlist. -/
def appliesOrigins : SettingsTask → Bool
  | .reloading _ | .applyingOrigins _ _ _ => true
  | _ => false

/-- The operation will apply the trusted proxies. -/
def appliesProxies : SettingsTask → Bool
  | .applyingProxies _ => true
  | _ => false

end SettingsTask

/-! ### The trace -/

/-- Some call has asked for this value. -/
def Asked (env : SettingsEnv Origins Proxies) (tr : List (SettingsLabel × SettingsOut))
    (key : SettingKey) (value : SettingValue) : Prop :=
  ∃ op out, (SettingsLabel.call op, out) ∈ tr ∧ op.key = key ∧ op.Requests env value

theorem Asked.mono {tr tr' : List (SettingsLabel × SettingsOut)} {key : SettingKey}
    {value : SettingValue} (h : Asked env tr key value) : Asked env (tr ++ tr') key value := by
  obtain ⟨op, out, h_mem, h⟩ := h
  exact ⟨op, out, List.mem_append_left _ h_mem, h⟩

/-- Some operation has set this setting, or found it to be as it was asked to make it. -/
def Touched (tr : List (SettingsLabel × SettingsOut)) (key : SettingKey) : Prop :=
  ∃ l o, (l, o) ∈ tr ∧ (o = .wrote key ∨ o = .completed key)

theorem Touched.mono {tr tr' : List (SettingsLabel × SettingsOut)} {key : SettingKey}
    (h : Touched tr key) : Touched (tr ++ tr') key := by
  obtain ⟨l, o, h_mem, h⟩ := h
  exact ⟨l, o, List.mem_append_left _ h_mem, h⟩

/-- The operation was called, and what it will set is what its call asks for. -/
def SettingsTask.Called (env : SettingsEnv Origins Proxies) (t : SettingsTask)
    (tr : List (SettingsLabel × SettingsOut)) : Prop :=
  match t with
  | .checking primaryUrl force =>
    ∃ out, (SettingsLabel.call (.setPrimaryUrl primaryUrl force), out) ∈ tr
  | .loading change | .writing change _ => Asked env tr change.key change.value
  | .reloading _ => Touched tr .allowedOrigins
  | .applyingOrigins key _ _ => Touched tr key
  | .applyingProxies _ => Touched tr .trustedProxies

theorem SettingsTask.Called.mono {t : SettingsTask} {tr tr' : List (SettingsLabel × SettingsOut)}
    (h : t.Called env tr) : t.Called env (tr ++ tr') := by
  cases t with
  | checking =>
    obtain ⟨out, h_mem⟩ := h
    exact ⟨out, List.mem_append_left _ h_mem⟩
  | loading => exact Asked.mono h
  | writing => exact Asked.mono h
  | reloading => exact Touched.mono h
  | applyingOrigins => exact Touched.mono h
  | applyingProxies => exact Touched.mono h

/-- The allowlist is the one built from the file. -/
def OriginsLive (env : SettingsEnv Origins Proxies) (live : Origins) (d : Config) : Prop :=
  live = env.resolveAllowedOrigins (d.allowedOrigins.getD []) d.primaryUrl

def ProxiesLive (env : SettingsEnv Origins Proxies) (live : Proxies) (d : Config) : Prop :=
  live = env.parseTrustedProxies (d.trustedProxies.getD [])

theorem OriginsLive.of_get {live : Origins} {d d' : Config} (h : OriginsLive env live d)
    (h_origins : d'.get .allowedOrigins = d.get .allowedOrigins)
    (h_url : d'.get .primaryUrl = d.get .primaryUrl) : OriginsLive env live d' := by
  have h_list := SettingValue.origins.inj h_origins
  have h_text := SettingValue.text.inj h_url
  rw [OriginsLive, h_list, h_text]
  exact h

theorem ProxiesLive.of_get {live : Proxies} {d d' : Config} (h : ProxiesLive env live d)
    (h_proxies : d'.get .trustedProxies = d.get .trustedProxies) : ProxiesLive env live d' := by
  rw [ProxiesLive, SettingValue.proxies.inj h_proxies]
  exact h

/-! ### The invariant -/

structure SettingsInv (env : SettingsEnv Origins Proxies) (file : Option Config)
    (tr : List (SettingsLabel × SettingsOut)) (s : SettingsState Origins Proxies) : Prop where
  agrees : ∀ id t, s.tasks.get? id = some t → t.Agrees (readConfig s.file)
  called : ∀ id t, s.tasks.get? id = some t → t.Called env tr
  fresh : ∀ id t, s.tasks.get? id = some t → id < s.calls
  untouched : ∀ key, (∀ op out, (SettingsLabel.call op, out) ∈ tr → op.key ≠ key) →
    (readConfig s.file).get key = (readConfig file).get key
  requested : ∀ key, Touched tr key → Asked env tr key ((readConfig s.file).get key)
  origins : OriginsLive env s.allowedOrigins (readConfig s.file) ∨
    ∃ id t, s.tasks.get? id = some t ∧ t.appliesOrigins = true
  proxies : ProxiesLive env s.trustedProxies (readConfig s.file) ∨
    ∃ id t, s.tasks.get? id = some t ∧ t.appliesProxies = true

namespace SettingsInv

variable {file : Option Config} {tr : List (SettingsLabel × SettingsOut)}
  {s s' : SettingsState Origins Proxies} {l : SettingsLabel} {o : SettingsOut}

theorem init (file : Option Config) :
    SettingsInv env file [] (settingsMachine env file).init where
  agrees id t h := absurd h (by simp [settingsMachine])
  called id t h := absurd h (by simp [settingsMachine])
  fresh id t h := absurd h (by simp [settingsMachine])
  untouched key h := rfl
  requested key h := by
    obtain ⟨l, o, h_mem, -⟩ := h
    exact absurd h_mem List.not_mem_nil
  origins := .inl rfl
  proxies := .inl rfl

/-- What was touched after one more step. -/
theorem touched_snoc {key : SettingKey} (h : Touched (tr ++ [(l, o)]) key) :
    Touched tr key ∨ o = .wrote key ∨ o = .completed key := by
  obtain ⟨l', o', h_mem, h_out⟩ := h
  obtain h_old | h_new := List.mem_append.mp h_mem
  · exact .inl ⟨l', o', h_old, h_out⟩
  · obtain ⟨-, rfl⟩ := Prod.mk.inj (List.mem_singleton.mp h_new)
    exact .inr h_out

/-- **A step that writes nothing**: the file is the same, and each task was there before or
fits the file. -/
theorem same_file (hi : SettingsInv env file tr s) (h_file : s'.file = s.file)
    (h_tasks : ∀ k t, s'.tasks.get? k = some t → s.tasks.get? k = some t ∧ k < s'.calls ∨
      t.Agrees (readConfig s.file) ∧ t.Called env (tr ++ [(l, o)]) ∧ k < s'.calls)
    (h_out : ∀ key, o = .wrote key ∨ o = .completed key →
      Asked env (tr ++ [(l, o)]) key ((readConfig s.file).get key))
    (h_origins : OriginsLive env s'.allowedOrigins (readConfig s.file) ∨
      ∃ k t, s'.tasks.get? k = some t ∧ t.appliesOrigins = true)
    (h_proxies : ProxiesLive env s'.trustedProxies (readConfig s.file) ∨
      ∃ k t, s'.tasks.get? k = some t ∧ t.appliesProxies = true) :
    SettingsInv env file (tr ++ [(l, o)]) s' where
  agrees k t h := by
    rw [h_file]
    obtain ⟨h_old, -⟩ | ⟨h_new, -⟩ := h_tasks k t h
    · exact hi.agrees k t h_old
    · exact h_new
  called k t h := by
    obtain ⟨h_old, -⟩ | ⟨-, h_new, -⟩ := h_tasks k t h
    · exact (hi.called k t h_old).mono
    · exact h_new
  fresh k t h := by
    obtain ⟨-, h_lt⟩ | ⟨-, -, h_lt⟩ := h_tasks k t h
    · exact h_lt
    · exact h_lt
  untouched key h := by
    rw [h_file]
    exact hi.untouched key fun op out h_mem => h op out (List.mem_append_left _ h_mem)
  requested key h := by
    rw [h_file]
    obtain h_old | h_new := touched_snoc h
    · exact (hi.requested key h_old).mono
    · exact h_out key h_new
  origins := by rwa [h_file]
  proxies := by rwa [h_file]

/-- **An operation goes on**: the task that was resumed applies nothing, and its successor
fits the file. -/
theorem suspend (hi : SettingsInv env file tr s) {id : ℕ} {t t' : SettingsTask}
    (h_get : s.tasks.get? id = some t)
    (h_rest : t.appliesOrigins = t'.appliesOrigins ∧ t.appliesProxies = t'.appliesProxies)
    (h_agrees : t'.Agrees (readConfig s.file))
    (h_called : t'.Called env (tr ++ [(l, .suspended)])) :
    SettingsInv env file (tr ++ [(l, .suspended)]) (s.suspend id t') := by
  have h_pending : ∀ p : SettingsTask → Bool, p t = p t' →
      (∃ k u, s.tasks.get? k = some u ∧ p u = true) →
      ∃ k u, (s.suspend id t').tasks.get? k = some u ∧ p u = true := by
    intro p h_p ⟨k, u, h_u, h_pu⟩
    by_cases h_eq : k = id
    · subst h_eq
      obtain rfl := Option.some.inj (h_get.symm.trans h_u)
      exact ⟨k, t', Table.get?_set_self _ _ _, h_p ▸ h_pu⟩
    · exact ⟨k, u, (Table.get?_set_of_ne _ _ h_eq).trans h_u, h_pu⟩
  refine hi.same_file rfl ?_ ?_ ?_ ?_
  · intro k u h_u
    obtain ⟨rfl, rfl⟩ | ⟨-, h_old⟩ := Table.get?_set_eq_some h_u
    · exact .inr ⟨h_agrees, h_called, hi.fresh _ _ h_get⟩
    · exact .inl ⟨h_old, hi.fresh _ _ h_old⟩
  · rintro key (h | h) <;> cases h
  · exact hi.origins.imp_right (h_pending _ h_rest.1)
  · exact hi.proxies.imp_right (h_pending _ h_rest.2)

/-- **An operation is over** that has applied nothing. -/
theorem finish (hi : SettingsInv env file tr s) {id : ℕ} {t : SettingsTask}
    (h_get : s.tasks.get? id = some t)
    (h_rest : t.appliesOrigins = false ∧ t.appliesProxies = false)
    (h_out : ∀ key, o = .wrote key ∨ o = .completed key →
      Asked env (tr ++ [(l, o)]) key ((readConfig s.file).get key)) :
    SettingsInv env file (tr ++ [(l, o)]) (s.finish id) := by
  have h_pending : ∀ p : SettingsTask → Bool, p t = false →
      (∃ k u, s.tasks.get? k = some u ∧ p u = true) →
      ∃ k u, (s.finish id).tasks.get? k = some u ∧ p u = true := by
    intro p h_p ⟨k, u, h_u, h_pu⟩
    have h_ne : k ≠ id := by
      rintro rfl
      obtain rfl := Option.some.inj (h_get.symm.trans h_u)
      exact absurd h_pu (by simp [h_p])
    exact ⟨k, u, Table.get?_erase.mpr ⟨h_u, h_ne⟩, h_pu⟩
  refine hi.same_file rfl ?_ h_out ?_ ?_
  · intro k u h_u
    have h_old := (Table.get?_erase.mp h_u).1
    exact .inl ⟨h_old, hi.fresh _ _ h_old⟩
  · exact hi.origins.imp_right (h_pending _ h_rest.1)
  · exact hi.proxies.imp_right (h_pending _ h_rest.2)

/-- The first segment of an operation. -/
theorem call (hi : SettingsInv env file tr s) (op : SettingsOp) :
    SettingsInv env file (tr ++ [(.call op, (s.call env op).2)]) (s.call env op).1 := by
  have h_mem : ∀ out, (SettingsLabel.call op, out) ∈ tr ++ [(SettingsLabel.call op, out)] :=
    fun out => List.mem_append_right _ List.mem_cons_self
  have h_refused : ∀ message, SettingsInv env file (tr ++ [(.call op, .failed message)])
      { s with calls := s.calls + 1 } := by
    intro message
    refine hi.same_file rfl (fun k t h => .inl ⟨h, ?_⟩) ?_ hi.origins hi.proxies
    · exact Nat.lt_succ_of_lt (hi.fresh k t h)
    · rintro key (h | h) <;> cases h
  have h_started : ∀ t : SettingsTask, t.Agrees (readConfig s.file) →
      t.Called env (tr ++ [(.call op, .suspended)]) →
      SettingsInv env file (tr ++ [(.call op, .suspended)])
        (({ s with calls := s.calls + 1 } : SettingsState Origins Proxies).suspend s.calls t) := by
    intro t h_agrees h_called
    have h_old : ∀ k u, s.tasks.get? k = some u →
        (s.tasks.set s.calls t).get? k = some u := by
      intro k u h_u
      exact (Table.get?_set_of_ne _ _ (Nat.ne_of_lt (hi.fresh k u h_u))).trans h_u
    refine hi.same_file rfl ?_ ?_ ?_ ?_
    · intro k u h_u
      obtain ⟨rfl, rfl⟩ | ⟨-, h_u⟩ := Table.get?_set_eq_some h_u
      · exact .inr ⟨h_agrees, h_called, Nat.lt_succ_self _⟩
      · exact .inl ⟨h_u, Nat.lt_succ_of_lt (hi.fresh k u h_u)⟩
    · rintro key (h | h) <;> cases h
    · exact hi.origins.imp_right fun ⟨k, u, h_u, h_p⟩ => ⟨k, u, h_old k u h_u, h_p⟩
    · exact hi.proxies.imp_right fun ⟨k, u, h_u, h_p⟩ => ⟨k, u, h_old k u h_u, h_p⟩
  cases op with
  | setDomain domain =>
    exact h_started _ trivial ⟨_, _, h_mem _, rfl, .domain domain⟩
  | setPrimaryUrl primaryUrl force => exact h_started _ trivial ⟨_, h_mem _⟩
  | setTrustedProxies data =>
    rw [SettingsState.call]
    split
    · exact h_refused _
    split
    · exact h_refused _
    · next entries h_entries =>
      exact h_started _ trivial ⟨_, _, h_mem _, rfl, .trustedProxies h_entries⟩
  | setAllowedOrigins data =>
    rw [SettingsState.call]
    split
    · exact h_refused _
    · next origins h_origins =>
      exact h_started _ trivial ⟨_, _, h_mem _, rfl, .allowedOrigins h_origins⟩

/-- `setPrimaryUrl` after its own read. -/
theorem checked (hi : SettingsInv env file tr s) {id clients : ℕ} {primaryUrl : Option String}
    {force : Bool} (h_get : s.tasks.get? id = some (.checking primaryUrl force)) :
    SettingsInv env file (tr ++ [(l, (s.checked env id clients primaryUrl force).2)])
      (s.checked env id clients primaryUrl force).1 := by
  obtain ⟨out, h_call⟩ := hi.called id _ h_get
  have h_asked : ∀ {next lo}, nextUrl env primaryUrl = .ok next →
      Asked env (tr ++ lo) .primaryUrl (.text next) := by
    intro next lo h_next
    exact ⟨_, out, List.mem_append_left _ h_call, rfl, .primaryUrl h_next⟩
  rw [SettingsState.checked]
  split
  · refine hi.finish h_get ⟨rfl, rfl⟩ ?_
    rintro key (h | h) <;> cases h
  next next h_next =>
  split
  case isTrue h_same =>
    refine hi.finish h_get ⟨rfl, rfl⟩ ?_
    rintro key (h | h)
    · cases h
    · obtain rfl := SettingsOut.completed.inj h
      show Asked env _ _ (.text (readConfig s.file).primaryUrl)
      rw [← h_same]
      exact h_asked h_next
  split
  case isTrue =>
    refine hi.finish h_get ⟨rfl, rfl⟩ ?_
    rintro key (h | h) <;> cases h
  case isFalse =>
    have h_bare := nextUrl_bare h_next
    refine hi.suspend h_get ⟨rfl, rfl⟩ ⟨h_bare, rfl⟩ ?_
    show Asked env _ _ (.text ((truthy next).map stripSlashes))
    rw [h_bare]
    exact h_asked h_next

/-- What a write makes of the state: the file is the one written, one task goes on to
`next`, and `next` applies what the change asks to be applied. -/
structure AfterWrite (env : SettingsEnv Origins Proxies) (tr : List (SettingsLabel × SettingsOut))
    (l : SettingsLabel) (o : SettingsOut) (s s' : SettingsState Origins Proxies) (id : ℕ)
    (change : Change) (config : Config) (next : Option SettingsTask) : Prop where
  file : s'.file = some config
  live : s'.allowedOrigins = s.allowedOrigins
  liveProxies : s'.trustedProxies = s.trustedProxies
  calls : s'.calls = s.calls
  others : ∀ k, k ≠ id → s'.tasks.get? k = s.tasks.get? k
  task : s'.tasks.get? id = next
  out : o = .wrote change.key ∨ o = .completed change.key
  fits : ∀ t, next = some t → t.Agrees config ∧ t.Called env (tr ++ [(l, o)])
  list : change.key = .allowedOrigins ∨ change.key = .primaryUrl →
    ∃ t, next = some t ∧ t.appliesOrigins = true
  trusted : change.key = .trustedProxies → ∃ t, next = some t ∧ t.appliesProxies = true

theorem afterWrite (hi : SettingsInv env file tr s) {id : ℕ} {change : Change} {config : Config}
    (h_get : s.tasks.get? id = some (.writing change config)) :
    ∃ next, AfterWrite env tr l (s.written id change config).2 s
      (s.written id change config).1 id change config next := by
  obtain ⟨h_change, -, h_self, h_rest⟩ := hi.agrees id _ h_get
  have h_touched : ∀ key, Touched (tr ++ [(l, SettingsOut.wrote key)]) key := fun key =>
    ⟨l, _, List.mem_append_right _ List.mem_cons_self, .inl rfl⟩
  have h_others : ∀ t k, k ≠ id → (s.tasks.set id t).get? k = s.tasks.get? k :=
    fun t k hk => Table.get?_set_of_ne _ _ hk
  have h_task : ∀ t, (s.tasks.set id t).get? id = some t := fun t => Table.get?_set_self _ _ _
  cases change with
  | domain name =>
    refine ⟨none, rfl, rfl, rfl, rfl, fun k hk => Table.get?_erase_of_ne _ hk,
      Table.get?_erase_self _ _, .inr rfl, (by rintro t ⟨⟩), ?_, (by rintro ⟨⟩)⟩
    rintro (h | h) <;> cases h
  | primaryUrl next origins =>
    refine ⟨_, rfl, rfl, rfl, rfl, h_others _, h_task _, .inl rfl, ?_, fun _ => ⟨_, rfl, rfl⟩,
      (by rintro ⟨⟩)⟩
    intro t h
    obtain rfl := Option.some.inj h
    have h_url : config.get .primaryUrl = .text next := h_self.trans (congrArg _ h_change.1)
    have h_ne : SettingKey.allowedOrigins ≠ Change.key (.primaryUrl next origins) :=
      (by rintro ⟨⟩)
    exact ⟨⟨(h_rest _ h_ne).trans h_change.2, h_url⟩, h_touched _⟩
  | trustedProxies entries =>
    refine ⟨_, rfl, rfl, rfl, rfl, h_others _, h_task _, .inl rfl, ?_, ?_, fun _ => ⟨_, rfl, rfl⟩⟩
    · intro t h
      obtain rfl := Option.some.inj h
      exact ⟨h_self, h_touched _⟩
    · rintro (h | h) <;> cases h
  | allowedOrigins origins =>
    refine ⟨_, rfl, rfl, rfl, rfl, h_others _, h_task _, .inl rfl, ?_, fun _ => ⟨_, rfl, rfl⟩,
      (by rintro ⟨⟩)⟩
    intro t h
    obtain rfl := Option.some.inj h
    exact ⟨h_self, h_touched _⟩

/-- What is about to be applied by another task than the one that has written. -/
theorem AfterWrite.pending {next : Option SettingsTask} {id : ℕ} {change : Change}
    {config : Config} (ha : AfterWrite env tr l o s s' id change config next)
    (h_get : s.tasks.get? id = some (.writing change config)) {p : SettingsTask → Bool}
    (h_p : p (.writing change config) = false)
    (h : ∃ k t, s.tasks.get? k = some t ∧ p t = true) :
    ∃ k t, s'.tasks.get? k = some t ∧ p t = true := by
  obtain ⟨k, t, h_t, h_pt⟩ := h
  have h_ne : k ≠ id := by
    rintro rfl
    obtain rfl := Option.some.inj (h_get.symm.trans h_t)
    exact absurd h_pt (by simp [h_p])
  exact ⟨k, t, (ha.others k h_ne).trans h_t, h_pt⟩

/-- **A write** that no other operation minds. -/
theorem write (hi : SettingsInv env file tr s) {id : ℕ} {change : Change} {config : Config}
    (h_get : s.tasks.get? id = some (.writing change config))
    (h_free : ∀ k t, s.tasks.get? k = some t → k ≠ id → t.reliesOn change.key = false) :
    SettingsInv env file (tr ++ [(l, (s.written id change config).2)])
      (s.written id change config).1 := by
  obtain ⟨h_change, h_carried, h_self, h_rest⟩ := hi.agrees id _ h_get
  have h_asked : Asked env tr change.key change.value := hi.called id _ h_get
  obtain ⟨next, ha⟩ := hi.afterWrite (l := l) h_get
  generalize (s.written id change config).1 = s' at ha ⊢
  generalize (s.written id change config).2 = o at ha ⊢
  have h_read : readConfig s'.file = config := by
    rw [ha.file]
    exact h_carried
  have h_tasks : ∀ k t, s'.tasks.get? k = some t →
      k ≠ id ∧ s.tasks.get? k = some t ∨ k = id ∧ next = some t := by
    intro k t h
    by_cases h_eq : k = id
    · exact .inr ⟨h_eq, ha.task.symm.trans (h_eq ▸ h)⟩
    · exact .inl ⟨h_eq, (ha.others k h_eq).symm.trans h⟩
  constructor
  case agrees =>
    intro k t h
    rw [h_read]
    obtain ⟨h_ne, h_old⟩ | ⟨-, h_t⟩ := h_tasks k t h
    · exact (hi.agrees k t h_old).of_get (h_free k t h_old h_ne) h_rest
    · exact (ha.fits t h_t).1
  case called =>
    intro k t h
    obtain ⟨-, h_old⟩ | ⟨-, h_t⟩ := h_tasks k t h
    · exact (hi.called k t h_old).mono
    · exact (ha.fits t h_t).2
  case fresh =>
    intro k t h
    rw [ha.calls]
    obtain ⟨-, h_old⟩ | ⟨rfl, -⟩ := h_tasks k t h
    · exact hi.fresh k t h_old
    · exact hi.fresh k _ h_get
  case untouched =>
    intro key h
    rw [h_read]
    have h_old : ∀ op out, (SettingsLabel.call op, out) ∈ tr → op.key ≠ key :=
      fun op out h_mem => h op out (List.mem_append_left _ h_mem)
    have h_ne : key ≠ change.key := by
      rintro rfl
      obtain ⟨op, out, h_mem, h_op, -⟩ := h_asked
      exact h_old op out h_mem h_op
    rw [h_rest key h_ne]
    exact hi.untouched key h_old
  case requested =>
    intro key h
    rw [h_read]
    by_cases h_eq : key = change.key
    · rw [h_eq, h_self]
      exact h_asked.mono
    · rw [h_rest key h_eq]
      obtain h_old | h_now := touched_snoc h
      · exact (hi.requested key h_old).mono
      · refine absurd ?_ h_eq
        obtain h_out | h_out := ha.out <;> obtain h_now | h_now := h_now <;>
          cases h_out.symm.trans h_now <;> rfl
  case origins =>
    rw [ha.live, h_read]
    by_cases h_key : change.key = .allowedOrigins ∨ change.key = .primaryUrl
    · obtain ⟨t, rfl, h_t⟩ := ha.list h_key
      exact .inr ⟨id, t, ha.task, h_t⟩
    · obtain ⟨h_not_list, h_not_url⟩ := not_or.mp h_key
      refine hi.origins.imp (fun h => ?_) (ha.pending h_get rfl)
      exact h.of_get (h_rest _ (Ne.symm h_not_list)) (h_rest _ (Ne.symm h_not_url))
  case proxies =>
    rw [ha.liveProxies, h_read]
    by_cases h_key : change.key = .trustedProxies
    · obtain ⟨t, rfl, h_t⟩ := ha.trusted h_key
      exact .inr ⟨id, t, ha.task, h_t⟩
    · exact hi.proxies.imp (fun h => h.of_get (h_rest _ (Ne.symm h_key))) (ha.pending h_get rfl)

/-- **The allowlist is applied**: it is the one built from the file. -/
theorem applyOrigins (hi : SettingsInv env file tr s) {id : ℕ} {key : SettingKey}
    {origins : List String} {primaryUrl : Option String}
    (h_get : s.tasks.get? id = some (.applyingOrigins key origins primaryUrl)) :
    SettingsInv env file (tr ++ [(l, .completed key)])
      (({ s with allowedOrigins := env.resolveAllowedOrigins origins primaryUrl } :
        SettingsState Origins Proxies).finish id) := by
  obtain ⟨h_list, h_url⟩ := hi.agrees id _ h_get
  have h_touched : Touched tr key := hi.called id _ h_get
  refine hi.same_file rfl ?_ ?_ (.inl ?_) ?_
  · intro k t h
    have h_old := (Table.get?_erase.mp h).1
    exact .inl ⟨h_old, hi.fresh k t h_old⟩
  · rintro key' (h | h)
    · cases h
    · obtain rfl := SettingsOut.completed.inj h
      exact (hi.requested key h_touched).mono
  · show env.resolveAllowedOrigins origins primaryUrl = _
    rw [← SettingValue.origins.inj h_list, ← SettingValue.text.inj h_url]
  · refine hi.proxies.imp_right fun ⟨k, t, h_t, h_p⟩ => ⟨k, t, Table.get?_erase.mpr ⟨h_t, ?_⟩, h_p⟩
    rintro rfl
    obtain rfl := Option.some.inj (h_get.symm.trans h_t)
    exact absurd h_p (by simp [SettingsTask.appliesProxies])

theorem applyProxies (hi : SettingsInv env file tr s) {id : ℕ} {entries : List TrustedProxyEntry}
    (h_get : s.tasks.get? id = some (.applyingProxies entries)) :
    SettingsInv env file (tr ++ [(l, .completed .trustedProxies)])
      (({ s with trustedProxies := env.parseTrustedProxies entries } :
        SettingsState Origins Proxies).finish id) := by
  have h_entries : (readConfig s.file).get .trustedProxies = .proxies entries :=
    hi.agrees id _ h_get
  have h_touched : Touched tr .trustedProxies := hi.called id _ h_get
  refine hi.same_file rfl ?_ ?_ ?_ (.inl ?_)
  · intro k t h
    have h_old := (Table.get?_erase.mp h).1
    exact .inl ⟨h_old, hi.fresh k t h_old⟩
  · rintro key' (h | h)
    · cases h
    · obtain rfl := SettingsOut.completed.inj h
      exact (hi.requested _ h_touched).mono
  · refine hi.origins.imp_right fun ⟨k, t, h_t, h_p⟩ => ⟨k, t, Table.get?_erase.mpr ⟨h_t, ?_⟩, h_p⟩
    rintro rfl
    obtain rfl := Option.some.inj (h_get.symm.trans h_t)
    exact absurd h_p (by simp [SettingsTask.appliesOrigins])
  · show env.parseTrustedProxies entries = _
    rw [← SettingValue.proxies.inj h_entries]

/-- **Every step** keeps the invariant. -/
theorem step (hi : SettingsInv env file tr s) (h_ok : NoneStale s l)
    (hs : s.step env l = some (s', o)) : SettingsInv env file (tr ++ [(l, o)]) s' := by
  cases l with
  | call op =>
    obtain ⟨rfl, rfl⟩ := Prod.mk.inj (Option.some.inj hs)
    exact hi.call op
  | load id clients =>
    rw [SettingsState.step] at hs
    split at hs
    · next h_get =>
      obtain ⟨rfl, rfl⟩ := Prod.mk.inj (Option.some.inj hs)
      exact hi.checked h_get
    · next change h_get =>
      obtain ⟨rfl, rfl⟩ := Prod.mk.inj (Option.some.inj hs)
      have h_change : change.Agrees (readConfig s.file) := hi.agrees id _ h_get
      have h_fits : SettingsTask.Agrees (.writing change (change.apply (readConfig s.file)))
          (readConfig s.file) :=
        ⟨h_change, change.carried_apply (readConfig_carried s.file), change.get_apply_self _,
          fun key h => change.get_apply_of_ne _ h⟩
      exact hi.suspend h_get ⟨rfl, rfl⟩ h_fits (Asked.mono (hi.called id _ h_get))
    · next origins h_get =>
      obtain ⟨rfl, rfl⟩ := Prod.mk.inj (Option.some.inj hs)
      exact hi.suspend h_get ⟨rfl, rfl⟩ ⟨hi.agrees id _ h_get, rfl⟩
        (Touched.mono (hi.called id _ h_get))
    · exact absurd hs (by simp)
  | write id ok =>
    rw [SettingsState.step] at hs
    split at hs
    case h_2 => exact absurd hs (by simp)
    next change config h_get =>
    cases ok with
    | true =>
      obtain ⟨rfl, rfl⟩ := Prod.mk.inj (Option.some.inj hs)
      refine hi.write h_get fun k t h_t h_ne => ?_
      have h_rule : ∀ e ∈ s.tasks.entries, e.1 ≠ id → e.2.reliesOn change.key = false := by
        simpa only [NoneStale, h_get] using h_ok
      exact h_rule (k, t) (Table.get?_eq_some_iff.mp h_t) h_ne
    | false =>
      obtain ⟨rfl, rfl⟩ := Prod.mk.inj (Option.some.inj hs)
      refine hi.finish h_get ⟨rfl, rfl⟩ ?_
      rintro key (h | h) <;> cases h
  | apply id =>
    rw [SettingsState.step] at hs
    split at hs
    · next h_get =>
      obtain ⟨rfl, rfl⟩ := Prod.mk.inj (Option.some.inj hs)
      exact hi.applyOrigins h_get
    · next h_get =>
      obtain ⟨rfl, rfl⟩ := Prod.mk.inj (Option.some.inj hs)
      exact hi.applyProxies h_get
    · exact absurd hs (by simp)

/-- What holds when no operation is suspended. -/
theorem kept (hi : SettingsInv env file tr s) (h_quiet : s.tasks = .empty) :
    SettingsKept env file tr s := by
  have h_none : ∀ p : SettingsTask → Bool, ¬∃ k t, s.tasks.get? k = some t ∧ p t = true := by
    rintro p ⟨k, t, h_t, -⟩
    rw [h_quiet, Table.get?_empty] at h_t
    cases h_t
  exact {
    untouched := hi.untouched
    requested := fun key l h => hi.requested key ⟨l, _, h, .inr rfl⟩
    origins := hi.origins.resolve_right (h_none _)
    proxies := hi.proxies.resolve_right (h_none _) }

end SettingsInv

theorem settingsInv_run {file : Option Config} {tr : List (SettingsLabel × SettingsOut)}
    {s : SettingsState Origins Proxies}
    (h : (settingsMachine env file).RunWhen NoneStale tr s) : SettingsInv env file tr s :=
  h.history (SettingsInv.init file) fun _ _ _ _ _ _ hi h_ok hs => hi.step h_ok hs

/-- An environment that takes every address and URL as it is given. -/
def plainEnv : SettingsEnv (List String × Option String) (List TrustedProxyEntry) where
  normalizeUrl value label :=
    if value ≠ "" ∧ stripSlashes value = value then .ok value
    else .error s!"{label} must be a bare origin, with no path or query"
  parseCidr _ := true
  trustedProxiesLocked := false
  resolveAllowedOrigins origins primaryUrl := (origins, primaryUrl)
  parseTrustedProxies entries := entries
  origin value label o h := by
    split at h
    · next h_bare =>
      obtain rfl := Except.ok.inj h
      exact h_bare
    · cases h

/-- A file with one trusted proxy. -/
def oneProxy : Option Config :=
  some { Config.empty with trustedProxies := some [⟨"10.0.0.1", none⟩] }

end ServerCentral.Settings
