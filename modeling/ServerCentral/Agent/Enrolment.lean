import ServerCentral.Agent.Identity

/-!
# The enrolment endpoints

`/node-install`, `/node-bootstrap` and `/node-binary` serve whoever presents a token, an
enrollment token or the durable token of an installed agent. A bootstrap also marks the token as
downloaded, in the table of the enrollment tokens alone, so that it fails for a durable one.

`enrolment_iff` says when a request is either refused or served. A token that is refused after it
was valid is refused for good, as long as the process runs.
-/

open Framework

namespace ServerCentral.Agent

/-- A request to one of the three endpoints. -/
inductive EnrolmentRequest where
  | install (token : String) (useExternal : Bool)
  | bootstrap (token platform : String)
  | binary (token platform : String)
  deriving DecidableEq, Repr

def EnrolmentRequest.token : EnrolmentRequest → String
  | .install token _ => token
  | .bootstrap token _ => token
  | .binary token _ => token

inductive EnrolmentAnswer where
  /-- 403, "Invalid or expired token" -/
  | forbidden
  /-- The rendered bootstrap script. -/
  | script (token : String) (useExternal : Bool)
  /-- What `binaryResponse` answers for the platform. -/
  | binary (platform : String)
  /-- An entry that does not exist was dereferenced. -/
  | typeError
  deriving DecidableEq, Repr

/-- What a request asks for. -/
def EnrolmentRequest.served : EnrolmentRequest → EnrolmentAnswer
  | .install token useExternal => .script token useExternal
  | .bootstrap _ platform => .binary platform
  | .binary _ platform => .binary platform

/-- The node server, the enrollment tokens marked as downloaded, and the time of the last
event. -/
structure EnrolmentState where
  node : NodeServerState
  downloaded : List String
  clock : ℕ

inductive EnrolmentLabel where
  | node (l : NodeLabel)
  | request (req : EnrolmentRequest) (now : ℕ)
  deriving DecidableEq, Repr

inductive EnrolmentOut where
  | node (o : NodeOut)
  | answer (answer : EnrolmentAnswer)
  deriving DecidableEq, Repr

/-- When an event happens, if it reads the clock. -/
def NodeLabel.time? : NodeLabel → Option ℕ
  | .mintToken _ now => some now
  | .sweep now => some now
  | .identify _ _ now => some now
  | .close _ now => some now
  | .restart start => some start.now
  | _ => none

namespace EnrolmentState

/-- The three endpoints. -/
def handle (s : EnrolmentState) (req : EnrolmentRequest) (now : ℕ) :
    EnrolmentState × EnrolmentAnswer :=
  let (valid, tokens) := s.node.validateToken req.token now
  let s := { s with node := { s.node with tokens }, clock := now }
  if !valid then (s, .forbidden)
  else match req with
    | .install token useExternal => (s, .script token useExternal)
    | .bootstrap token platform =>
      match tokens.get? token with
      | none => (s, .typeError)
      | some _ => ({ s with downloaded := token :: s.downloaded }, .binary platform)
    | .binary _ platform => (s, .binary platform)

def step (s : EnrolmentState) : EnrolmentLabel → Option (EnrolmentState × EnrolmentOut)
  | .node l => (s.node.step l).map fun (node, o) =>
    ({ s with node, clock := l.time?.getD s.clock }, .node o)
  | .request req now =>
    let (s', answer) := s.handle req now
    some (s', .answer answer)

/-- The process goes on, and its clock does not go back. -/
def InProcess (s : EnrolmentState) : EnrolmentLabel → Prop
  | .node (.restart _) => False
  | .node l => ∀ now, l.time? = some now → s.clock ≤ now
  | .request _ now => s.clock ≤ now

end EnrolmentState

/-- **The node server and its endpoints.** -/
def enrolmentMachine (start : NodeStart) : Machine EnrolmentState EnrolmentLabel EnrolmentOut where
  init := ⟨(nodeMachine start).init, [], start.now⟩
  step s l := s.step l

/-- The token is accepted at this time. -/
def Valid (s : EnrolmentState) (token : String) (now : ℕ) : Prop :=
  (s.node.validateToken token now).1 = true

/-- **The endpoints in a state**: a request is refused or served, and a token that is refused
after it was valid is never accepted again in this process. -/
structure EnrolmentSound (start : NodeStart) (s : EnrolmentState) (req : EnrolmentRequest)
    (now : ℕ) : Prop where
  answered : (¬ Valid s req.token now ∧ (s.handle req now).2 = .forbidden) ∨
    (Valid s req.token now ∧ (s.handle req now).2 = req.served)
  final : ∀ token at₀, Valid s token at₀ →
    ∀ tr₁ s₁ at₁, (enrolmentMachine start).Steps EnrolmentState.InProcess s tr₁ s₁ →
      s₁.clock ≤ at₁ → ¬ Valid s₁ token at₁ →
    ∀ tr₂ s₂ at₂, (enrolmentMachine start).Steps EnrolmentState.InProcess
        { s₁ with clock := at₁ } tr₂ s₂ →
      s₂.clock ≤ at₂ → ¬ Valid s₂ token at₂

/-! ### Tokens -/

/-- When a token is accepted. -/
theorem validateToken_iff {s : NodeServerState} {token : String} {now : ℕ} :
    (s.validateToken token now).1 = true ↔ token ∈ s.durableTokens.values ∨
      ∃ expiresAt, s.tokens.get? token = some expiresAt ∧ now ≤ expiresAt := by
  by_cases h_durable : token ∈ s.durableTokens.values
  · simp [NodeServerState.validateToken, h_durable]
  cases h_get : s.tokens.get? token with
  | none => simp [NodeServerState.validateToken, h_durable, h_get]
  | some expiresAt =>
    by_cases h_late : now > expiresAt
    · simp [NodeServerState.validateToken, h_durable, h_get, h_late]
    · simp [NodeServerState.validateToken, h_durable, h_get, h_late, Nat.not_lt.mp h_late]

/-- The check removes at most tokens. -/
theorem validateToken_tokens {s : NodeServerState} {token t : String} {now e : ℕ}
    (h : (s.validateToken token now).2.get? t = some e) : s.tokens.get? t = some e := by
  unfold NodeServerState.validateToken at h
  split at h
  · exact h
  · split at h
    · exact h
    · split at h
      · exact (Table.get?_erase.mp h).1
      · exact h

/-- An accepted token is not removed. -/
theorem validateToken_kept {s : NodeServerState} {token : String} {now : ℕ}
    (h : (s.validateToken token now).1 = true) : (s.validateToken token now).2 = s.tokens := by
  unfold NodeServerState.validateToken at h ⊢
  split
  · rfl
  next h_durable =>
    rw [if_neg h_durable] at h
    cases h_get : s.tokens.get? token with
    | none => rfl
    | some expiresAt =>
      simp only [h_get] at h ⊢
      split at h
      · exact absurd h (by simp)
      next h_late => rw [if_neg h_late]

theorem mem_values_setDurable {durable : Table String String} {machineId token t : String}
    (h : t ∈ (setDurable durable machineId token).values) : t = token ∨ t ∈ durable.values := by
  obtain ⟨m, h_get⟩ := Table.get?_of_mem_values.mp h
  obtain ⟨-, rfl⟩ | ⟨-, h_old⟩ | ⟨-, h_old⟩ := setDurable_get? h_get
  · exact .inl rfl
  · exact .inr (Table.get?_of_mem_values.mpr ⟨m, h_old⟩)
  · exact .inr (Table.get?_of_mem_values.mpr ⟨m, h_old⟩)

/-- Durable tokens come from `mintAgentToken`, enrollment tokens do not. -/
structure TokensInv (s : NodeServerState) : Prop where
  durable : ∀ t ∈ s.durableTokens.values, t ∈ s.mints.map Mint.token
  file : ∀ t ∈ s.file.values, t ∈ s.mints.map Mint.token
  content : ∀ k mint content, s.tasks.get? k = some (.writing mint content) →
    ∀ t ∈ content.values, t ∈ s.mints.map Mint.token
  drawn : ∀ t ∈ s.mints.map Mint.token, t ∈ s.drawn
  enrollment : ∀ t e, s.tokens.get? t = some e → t ∈ s.drawn ∧ t ∉ s.mints.map Mint.token

namespace TokensInv

variable {s s' : NodeServerState}

/-- The invariant sees the tokens alone. -/
theorem of_eq (hi : TokensInv s) (h_durable : s'.durableTokens = s.durableTokens)
    (h_file : s'.file = s.file) (h_tasks : s'.tasks = s.tasks) (h_mints : s'.mints = s.mints)
    (h_drawn : s'.drawn = s.drawn)
    (h_tokens : ∀ t e, s'.tokens.get? t = some e → s.tokens.get? t = some e) : TokensInv s' where
  durable := by
    rw [h_durable, h_mints]
    exact hi.durable
  file := by
    rw [h_file, h_mints]
    exact hi.file
  content := by
    rw [h_tasks, h_mints]
    exact hi.content
  drawn := by
    rw [h_mints, h_drawn]
    exact hi.drawn
  enrollment t e h := by
    rw [h_drawn, h_mints]
    exact hi.enrollment t e (h_tokens t e h)

theorem boot (start : NodeStart) (conn : ℕ) {file : Table String String} {drawn : List String}
    {mints : List Mint} {returned : List String}
    (h_file : ∀ t ∈ file.values, t ∈ mints.map Mint.token)
    (h_drawn : ∀ t ∈ mints.map Mint.token, t ∈ drawn) :
    TokensInv (.boot start conn file drawn mints returned) where
  durable := h_file
  file := h_file
  content k mint content h := absurd h (by simp [NodeServerState.boot])
  drawn := h_drawn
  enrollment t e h := absurd h (by simp [NodeServerState.boot])

theorem step (hi : TokensInv s) {l : NodeLabel} {o : NodeOut} (hs : s.step l = some (s', o)) :
    TokensInv s' := by
  cases l with
  | mintToken token now =>
    rw [NodeServerState.step] at hs
    split at hs
    case isTrue => exact absurd hs (by simp)
    case isFalse h_fresh =>
      obtain ⟨rfl, -⟩ := Prod.mk.inj (Option.some.inj hs)
      refine ⟨hi.durable, hi.file, hi.content, fun t h => ?_, fun t e h => ?_⟩
      · exact List.mem_append_left _ (hi.drawn t h)
      · obtain ⟨rfl, -⟩ | ⟨-, h⟩ := Table.get?_set_eq_some h
        · exact ⟨List.mem_append_right _ List.mem_cons_self, fun h_mint => h_fresh (hi.drawn _ h_mint)⟩
        · exact (hi.enrollment t e h).imp_left fun h => List.mem_append_left _ h
  | mintAgentToken machineId token =>
    rw [NodeServerState.step] at hs
    split at hs
    case isTrue => exact absurd hs (by simp)
    case isFalse h_fresh =>
      obtain ⟨rfl, -⟩ := Prod.mk.inj (Option.some.inj hs)
      have h_old : ∀ t ∈ s.mints.map Mint.token,
          t ∈ (s.mints ++ [Mint.mk machineId token]).map Mint.token := by
        intro t h
        rw [List.map_append]
        exact List.mem_append_left _ h
      constructor
      case durable =>
        intro t h
        obtain rfl | h := mem_values_setDurable h
        · simp
        · exact h_old t (hi.durable t h)
      case file => exact fun t h => h_old t (hi.file t h)
      case content =>
        intro k mint content h t h_t
        obtain ⟨-, h_task⟩ | ⟨-, h⟩ := Table.get?_set_eq_some h
        · exact absurd h_task (by simp)
        · exact h_old t (hi.content k mint content h t h_t)
      case drawn =>
        intro t h
        rw [List.map_append] at h
        obtain h | h := List.mem_append.mp h
        · exact List.mem_append_left _ (hi.drawn t h)
        · exact List.mem_append_right _ h
      case enrollment =>
        intro t e h
        obtain ⟨h_drawn, h_mint⟩ := hi.enrollment t e h
        refine ⟨List.mem_append_left _ h_drawn, fun h_mem => ?_⟩
        rw [List.map_append] at h_mem
        obtain h_mem | h_mem := List.mem_append.mp h_mem
        · exact h_mint h_mem
        · obtain rfl : t = token := List.mem_singleton.mp h_mem
          exact h_fresh h_drawn
  | ensured k =>
    rw [NodeServerState.step] at hs
    split at hs
    case h_2 => exact absurd hs (by simp)
    next mint h_get =>
    obtain ⟨rfl, -⟩ := Prod.mk.inj (Option.some.inj hs)
    refine ⟨hi.durable, hi.file, fun k' mint' content h => ?_, hi.drawn, hi.enrollment⟩
    obtain ⟨-, h_task⟩ | ⟨-, h⟩ := Table.get?_set_eq_some h
    · obtain ⟨-, rfl⟩ := MintTask.writing.inj h_task
      exact hi.durable
    · exact hi.content k' mint' content h
  | written k ok =>
    rw [NodeServerState.step] at hs
    split at hs
    case h_2 => exact absurd hs (by simp)
    next mint content h_get =>
    have h_content : ∀ k' mint' content', (s.tasks.erase k).get? k' = some (.writing mint' content') →
        ∀ t ∈ content'.values, t ∈ s.mints.map Mint.token :=
      fun k' mint' content' h => hi.content k' mint' content' (Table.get?_erase.mp h).1
    cases ok with
    | true =>
      obtain ⟨rfl, -⟩ := Prod.mk.inj (Option.some.inj hs)
      exact ⟨hi.durable, hi.content k mint content h_get, h_content, hi.drawn, hi.enrollment⟩
    | false =>
      obtain ⟨rfl, -⟩ := Prod.mk.inj (Option.some.inj hs)
      exact ⟨hi.durable, hi.file, h_content, hi.drawn, hi.enrollment⟩
  | sweep now =>
    obtain ⟨rfl, -⟩ := Prod.mk.inj (Option.some.inj hs)
    exact hi.of_eq rfl rfl rfl rfl rfl fun t e h => (Table.get?_filter.mp h).1
  | identify msg remoteIp now =>
    obtain ⟨tokens, h_sub, h_eq⟩ | ⟨active, -, h_eq⟩ := identify_cases s msg remoteIp now
    · obtain ⟨rfl, -⟩ := Prod.mk.inj (h_eq.symm.trans (Option.some.inj hs))
      exact hi.of_eq rfl rfl rfl rfl rfl h_sub
    · obtain ⟨rfl, -⟩ := Prod.mk.inj (h_eq.symm.trans (Option.some.inj hs))
      exact hi.of_eq rfl rfl rfl rfl rfl fun _ _ h => h
  | close conn now =>
    obtain ⟨rfl, -⟩ := Prod.mk.inj (Option.some.inj hs)
    unfold NodeServerState.close
    split
    · exact hi
    · exact hi.of_eq rfl rfl rfl rfl rfl fun _ _ h => h
  | restart start =>
    obtain ⟨rfl, -⟩ := Prod.mk.inj (Option.some.inj hs)
    exact .boot start s.nextConn hi.file hi.drawn

end TokensInv

/-- **A step of a process** accepts no token that was drawn before and is not accepted
already. -/
theorem process_step {s s' : NodeServerState} {l : NodeLabel} {o : NodeOut}
    (h_process : ∀ start, l ≠ .restart start) (hs : s.step l = some (s', o)) :
    s.drawn ⊆ s'.drawn ∧
      (∀ t ∈ s'.durableTokens.values, t ∈ s.durableTokens.values ∨ t ∉ s.drawn) ∧
      ∀ t e, s'.tokens.get? t = some e → s.tokens.get? t = some e ∨ t ∉ s.drawn := by
  cases l with
  | mintToken token now =>
    rw [NodeServerState.step] at hs
    split at hs
    case isTrue => exact absurd hs (by simp)
    case isFalse h_fresh =>
      obtain ⟨rfl, -⟩ := Prod.mk.inj (Option.some.inj hs)
      refine ⟨List.subset_append_left _ _, fun t h => .inl h, fun t e h => ?_⟩
      obtain ⟨rfl, -⟩ | ⟨-, h⟩ := Table.get?_set_eq_some h
      · exact .inr h_fresh
      · exact .inl h
  | mintAgentToken machineId token =>
    rw [NodeServerState.step] at hs
    split at hs
    case isTrue => exact absurd hs (by simp)
    case isFalse h_fresh =>
      obtain ⟨rfl, -⟩ := Prod.mk.inj (Option.some.inj hs)
      refine ⟨List.subset_append_left _ _, fun t h => ?_, fun t e h => .inl h⟩
      obtain rfl | h := mem_values_setDurable h
      · exact .inr h_fresh
      · exact .inl h
  | ensured k =>
    rw [NodeServerState.step] at hs
    split at hs
    case h_2 => exact absurd hs (by simp)
    obtain ⟨rfl, -⟩ := Prod.mk.inj (Option.some.inj hs)
    exact ⟨List.Subset.refl _, fun t h => .inl h, fun t e h => .inl h⟩
  | written k ok =>
    rw [NodeServerState.step] at hs
    split at hs
    case h_2 => exact absurd hs (by simp)
    cases ok with
    | true =>
      obtain ⟨rfl, -⟩ := Prod.mk.inj (Option.some.inj hs)
      exact ⟨List.Subset.refl _, fun t h => .inl h, fun t e h => .inl h⟩
    | false =>
      obtain ⟨rfl, -⟩ := Prod.mk.inj (Option.some.inj hs)
      exact ⟨List.Subset.refl _, fun t h => .inl h, fun t e h => .inl h⟩
  | sweep now =>
    obtain ⟨rfl, -⟩ := Prod.mk.inj (Option.some.inj hs)
    exact ⟨List.Subset.refl _, fun t h => .inl h, fun t e h => .inl (Table.get?_filter.mp h).1⟩
  | identify msg remoteIp now =>
    obtain ⟨tokens, h_sub, h_eq⟩ | ⟨active, -, h_eq⟩ := identify_cases s msg remoteIp now
    · obtain ⟨rfl, -⟩ := Prod.mk.inj (h_eq.symm.trans (Option.some.inj hs))
      exact ⟨List.Subset.refl _, fun t h => .inl h, fun t e h => .inl (h_sub t e h)⟩
    · obtain ⟨rfl, -⟩ := Prod.mk.inj (h_eq.symm.trans (Option.some.inj hs))
      exact ⟨List.Subset.refl _, fun t h => .inl h, fun t e h => .inl h⟩
  | close conn now =>
    obtain ⟨rfl, -⟩ := Prod.mk.inj (Option.some.inj hs)
    unfold NodeServerState.close
    split
    · exact ⟨List.Subset.refl _, fun t h => .inl h, fun t e h => .inl h⟩
    · exact ⟨List.Subset.refl _, fun t h => .inl h, fun t e h => .inl h⟩
  | restart start => exact absurd rfl (h_process start)

/-! ### Requests -/

section Requests

variable {start : NodeStart} {s s' : EnrolmentState} {req : EnrolmentRequest} {now : ℕ}

/-- A request leaves the server as it is, but for enrollment tokens that are removed. -/
theorem handle_node (s : EnrolmentState) (req : EnrolmentRequest) (now : ℕ) :
    (s.handle req now).1.node = { s.node with tokens := (s.node.validateToken req.token now).2 } ∧
      (s.handle req now).1.clock = now := by
  rw [EnrolmentState.handle]
  dsimp only
  split
  · exact ⟨rfl, rfl⟩
  · cases req with
    | install token useExternal => exact ⟨rfl, rfl⟩
    | bootstrap token platform =>
      dsimp only
      split
      · exact ⟨rfl, rfl⟩
      · exact ⟨rfl, rfl⟩
    | binary token platform => exact ⟨rfl, rfl⟩

/-- A token that is not accepted is answered with 403. -/
theorem handle_refused (h : ¬ Valid s req.token now) : (s.handle req now).2 = .forbidden := by
  rw [Valid, Bool.not_eq_true] at h
  rw [EnrolmentState.handle]
  simp [h]

/-- A token that is accepted is served, but a bootstrap needs the entry of an enrollment
token. -/
theorem handle_valid (h : Valid s req.token now) :
    (s.handle req now).2 = req.served ∨ (s.handle req now).2 = .typeError ∧
      ∃ token platform, req = .bootstrap token platform ∧ s.node.tokens.get? token = none := by
  have h_kept := validateToken_kept h
  rw [Valid] at h
  rw [EnrolmentState.handle]
  simp only [h, Bool.not_true, Bool.false_eq_true, if_false, h_kept]
  cases req with
  | install token useExternal => exact .inl rfl
  | bootstrap token platform =>
    cases h_get : s.node.tokens.get? token with
    | none => exact .inr ⟨by simp [h_get], token, platform, rfl, h_get⟩
    | some expiresAt => exact .inl (by simp [h_get, EnrolmentRequest.served])
  | binary token platform => exact .inl rfl

theorem handle_bootstrap {token : String} (platform : String) (h : Valid s token now)
    (h_get : s.node.tokens.get? token = none) :
    (s.handle (.bootstrap token platform) now).2 = .typeError := by
  have h_req : Valid s (EnrolmentRequest.bootstrap token platform).token now := h
  obtain h_served | ⟨h_error, -⟩ := handle_valid h_req
  · have h_kept := validateToken_kept h
    rw [Valid] at h
    rw [EnrolmentState.handle] at h_served ⊢
    simp [EnrolmentRequest.token, h, h_kept, h_get]
  · exact h_error

/-- What a step does to the server. -/
theorem enrolment_step_cases {l : EnrolmentLabel} {o : EnrolmentOut}
    (hs : s.step l = some (s', o)) :
    (∃ l' o', l = .node l' ∧ s.node.step l' = some (s'.node, o') ∧
        s'.clock = l'.time?.getD s.clock) ∨
      ∃ req now, l = .request req now ∧
        s'.node = { s.node with tokens := (s.node.validateToken req.token now).2 } ∧
        s'.clock = now := by
  cases l with
  | node l' =>
    obtain ⟨⟨node, o'⟩, h_step, h_eq⟩ := Option.map_eq_some_iff.mp hs
    obtain ⟨rfl, -⟩ := Prod.mk.inj h_eq
    exact .inl ⟨l', o', rfl, h_step, rfl⟩
  | request req now =>
    obtain ⟨rfl, -⟩ := Prod.mk.inj (Option.some.inj hs)
    exact .inr ⟨req, now, rfl, handle_node s req now⟩

theorem tokensInv_run {ok : EnrolmentState → EnrolmentLabel → Prop}
    {tr : List (EnrolmentLabel × EnrolmentOut)}
    (h : (enrolmentMachine start).RunWhen ok tr s) : TokensInv s.node := by
  refine h.invariant (P := fun s => TokensInv s.node) ?_ ?_
  · exact .boot start 0 (fun t h => absurd h (by simp)) (fun t h => absurd h (by simp))
  · intro s l s' o hi _ hs
    obtain ⟨l', o', -, h_step, -⟩ | ⟨req, now, -, h_node, -⟩ := enrolment_step_cases hs
    · exact hi.step h_step
    · rw [h_node]
      exact hi.of_eq rfl rfl rfl rfl rfl fun t e h => validateToken_tokens h

end Requests

/-! ### Refused for good -/

/-- The token was drawn, and is neither a durable token nor an enrollment token that has time
left. -/
structure Dead (token : String) (s : EnrolmentState) : Prop where
  drawn : token ∈ s.node.drawn
  durable : token ∉ s.node.durableTokens.values
  enrollment : ∀ e, s.node.tokens.get? token = some e → e < s.clock

theorem Dead.step {token : String} {s s' : EnrolmentState} {l : EnrolmentLabel} {o : EnrolmentOut}
    (h : Dead token s) (h_process : s.InProcess l) (hs : s.step l = some (s', o)) :
    Dead token s' := by
  have h_clock : s.clock ≤ s'.clock := by
    obtain ⟨l', o', rfl, -, h_eq⟩ | ⟨req, now, rfl, -, h_eq⟩ := enrolment_step_cases hs
    · rw [h_eq]
      cases h_time : l'.time? with
      | none => exact Nat.le_refl _
      | some now =>
        cases l' with
        | restart start => exact absurd h_process id
        | _ => exact h_process now h_time
    · exact h_eq ▸ h_process
  obtain ⟨l', o', rfl, h_step, -⟩ | ⟨req, now, -, h_node, -⟩ := enrolment_step_cases hs
  · have h_goes_on : ∀ start, l' ≠ .restart start := by
      rintro start rfl
      exact h_process
    obtain ⟨h_drawn, h_durable, h_tokens⟩ := process_step h_goes_on h_step
    constructor
    case drawn => exact h_drawn h.drawn
    case durable =>
      intro h_mem
      obtain h_old | h_new := h_durable token h_mem
      · exact h.durable h_old
      · exact h_new h.drawn
    case enrollment =>
      intro e h_get
      obtain h_old | h_new := h_tokens token e h_get
      · exact Nat.lt_of_lt_of_le (h.enrollment e h_old) h_clock
      · exact absurd h.drawn h_new
  · constructor
    case drawn => exact h_node ▸ h.drawn
    case durable => exact h_node ▸ h.durable
    case enrollment =>
      intro e h_get
      rw [h_node] at h_get
      exact Nat.lt_of_lt_of_le (h.enrollment e (validateToken_tokens h_get)) h_clock

/-- What a process has drawn stays drawn. -/
theorem drawn_steps {start : NodeStart} {s s' : EnrolmentState}
    {tr : List (EnrolmentLabel × EnrolmentOut)} {token : String}
    (h : (enrolmentMachine start).Steps EnrolmentState.InProcess s tr s')
    (h_drawn : token ∈ s.node.drawn) : token ∈ s'.node.drawn := by
  refine h.stable (P := fun s => token ∈ s.node.drawn) ?_ h_drawn
  intro s l s' o h_drawn h_process hs
  obtain ⟨l', o', rfl, h_step, -⟩ | ⟨req, now, -, h_node, -⟩ := enrolment_step_cases hs
  · refine (process_step ?_ h_step).1 h_drawn
    rintro start rfl
    exact h_process
  · exact h_node ▸ h_drawn

/-! ### The theorem -/

/-- **The endpoints** of every reachable server answer a request with 403 or serve it exactly if
it is no bootstrap with the durable token of an installed agent; and refuse for good. -/
theorem enrolment_iff (start : NodeStart) {tr : List (EnrolmentLabel × EnrolmentOut)}
    {s : EnrolmentState} (h : (enrolmentMachine start).Run tr s) (req : EnrolmentRequest)
    (now : ℕ) :
    EnrolmentSound start s req now ↔
      ∀ token platform, req = .bootstrap token platform → token ∉ s.node.durableTokens.values := by
  have hi := tokensInv_run h
  constructor
  · rintro ⟨h_answered, -⟩ token platform rfl h_durable
    have h_valid : Valid s token now := validateToken_iff.mpr (.inl h_durable)
    have h_none : s.node.tokens.get? token = none := by
      rw [Option.eq_none_iff_forall_ne_some]
      exact fun e h_get => (hi.enrollment token e h_get).2 (hi.durable token h_durable)
    have h_error := handle_bootstrap platform h_valid h_none
    obtain ⟨-, h_forbidden⟩ | ⟨-, h_served⟩ := h_answered
    · exact absurd (h_error.symm.trans h_forbidden) (by simp)
    · exact absurd (h_error.symm.trans h_served) (by simp [EnrolmentRequest.served])
  · intro h_request
    constructor
    case answered =>
      by_cases h_valid : Valid s req.token now
      · refine .inr ⟨h_valid, ?_⟩
        obtain h_served | ⟨-, token, platform, rfl, h_none⟩ := handle_valid h_valid
        · exact h_served
        · -- the token is accepted without being an enrollment token
          obtain h_durable | ⟨e, h_get, -⟩ := validateToken_iff.mp h_valid
          · exact absurd h_durable (h_request token platform rfl)
          · exact absurd (h_none.symm.trans h_get) (by simp)
      · exact .inl ⟨h_valid, handle_refused h_valid⟩
    case final =>
      intro token at₀ h_valid tr₁ s₁ at₁ h_steps₁ h_at₁ h_refused tr₂ s₂ at₂ h_steps₂ h_at₂ h_again
      have h_drawn : token ∈ s.node.drawn := by
        obtain h_durable | ⟨e, h_get, -⟩ := validateToken_iff.mp h_valid
        · exact hi.drawn token (hi.durable token h_durable)
        · exact (hi.enrollment token e h_get).1
      have h_refused : ¬ (token ∈ s₁.node.durableTokens.values ∨
          ∃ e, s₁.node.tokens.get? token = some e ∧ at₁ ≤ e) :=
        fun h => h_refused (validateToken_iff.mpr h)
      have h_drawn₁ := drawn_steps h_steps₁ h_drawn
      have h_dead : Dead token { s₁ with clock := at₁ } := by
        refine ⟨h_drawn₁, fun h => h_refused (.inl h), fun e h_get => ?_⟩
        exact Nat.lt_of_not_le fun h_le => h_refused (.inr ⟨e, h_get, h_le⟩)
      have h_dead₂ := h_steps₂.stable (P := Dead token)
        (fun _ _ _ _ h_dead h_process hs => h_dead.step h_process hs) h_dead
      obtain h_durable | ⟨e, h_get, h_le⟩ := validateToken_iff.mp h_again
      · exact h_dead₂.durable h_durable
      · have h_late := h_dead₂.enrollment e h_get
        omega

/-! ### Two runs -/

/-- The binary of an enrollment token is served. -/
theorem enrolment_iff_served : ∃ tr s, (enrolmentMachine sampleStart).Run tr s ∧
    EnrolmentSound sampleStart s (.bootstrap "b" "linux-x64") 5 ∧
    (s.handle (.bootstrap "b" "linux-x64") 5).2 = .binary "linux-x64" := by
  obtain ⟨tr, s, h_exec, h_read⟩ := (enrolmentMachine sampleStart).exec_reads
    (enrolmentMachine sampleStart).init [.node (.mintToken "b" 0)]
    (fun s => (s.node.durableTokens.values, (s.handle (.bootstrap "b" "linux-x64") 5).2))
    ([], .binary "linux-x64") (by decide)
  obtain ⟨h_durable, h_served⟩ := Prod.mk.inj h_read
  have h_run := Machine.run_of_exec _ h_exec
  refine ⟨tr, s, h_run, (enrolment_iff sampleStart h_run _ _).mpr ?_, h_served⟩
  intro token platform _
  rw [h_durable]
  exact List.not_mem_nil

/-- A durable token is accepted at `/node-bootstrap`, and the request fails. -/
theorem durable_bootstrap_fails : ∃ tr s, (enrolmentMachine sampleStart).Run tr s ∧
    Valid s "t" 5 ∧ (s.handle (.bootstrap "t" "linux-x64") 5).2 = .typeError ∧
    ¬ EnrolmentSound sampleStart s (.bootstrap "t" "linux-x64") 5 := by
  obtain ⟨tr, s, h_exec, h_read⟩ := (enrolmentMachine sampleStart).exec_reads
    (enrolmentMachine sampleStart).init
    [.node (.mintAgentToken "a" "t"), .node (.ensured 0), .node (.written 0 true)]
    (fun s => ((s.node.validateToken "t" 5).1, (s.handle (.bootstrap "t" "linux-x64") 5).2))
    (true, .typeError) (by decide)
  obtain ⟨h_valid, h_error⟩ := Prod.mk.inj h_read
  refine ⟨tr, s, Machine.run_of_exec _ h_exec, h_valid, h_error, ?_⟩
  rintro ⟨h_answered, -⟩
  obtain ⟨-, h_forbidden⟩ | ⟨-, h_served⟩ := h_answered
  · exact absurd (h_error.symm.trans h_forbidden) (by simp)
  · exact absurd (h_error.symm.trans h_served) (by simp [EnrolmentRequest.served])

end ServerCentral.Agent
