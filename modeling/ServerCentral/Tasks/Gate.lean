import ServerCentral.Auth.Roles
import ServerCentral.Tasks.Kinds
import ServerCentral.Tasks.StoreSafety

/-!
# The gate of the tasks

`tasks/run` takes a spec off the wire. Its `kind` is any JSON value, and reading
`TASK_KIND_PERMISSIONS[kind]` and `handlers[kind]` converts it to a text first: an array of
one kind converts to the kind, and the names an object inherits find a property of
`Object.prototype`, which is neither a node nor a handler. The owner passes every check,
also one of a property that is no node, and so does `*`.

`GateHolds` is what a request may do, and `task_gate` says for which requests it holds, and
what then holds of the stored runs.
-/

open Framework ServerCentral.Auth

namespace ServerCentral.Tasks

/-! ### Values off the wire -/

/-- A JSON value. A number is kept as the text it converts to. -/
inductive Json where
  | null
  | bool (b : Bool)
  | number (text : String)
  | string (s : String)
  | array (elements : List Json)
  | object (fields : List (String × Json))

mutual

/-- `String(value)`; `none` if it throws, as it does for an object with a `toString` of its
own, which is no function. -/
def Json.toText : Json → Option String
  | .null => some "null"
  | .bool b => some (if b then "true" else "false")
  | .number text => some text
  | .string s => some s
  | .array elements => (Json.texts elements).map (String.intercalate ",")
  | .object fields =>
    if fields.any fun field => field.1 = "toString" then none else some "[object Object]"

/-- The texts `join` puts together: `null` becomes the empty one. -/
def Json.texts : List Json → Option (List String)
  | [] => some []
  | .null :: elements => (Json.texts elements).map ("" :: ·)
  | element :: elements =>
    (Json.toText element).bind fun text => (Json.texts elements).map (text :: ·)

end

/-- `value[name]`, for a name that no value inherits: `none` if it throws. A value is absent
(`none`) where it is `undefined`. -/
def readField (value : Option Json) (name : String) : Option (Option Json) :=
  match value with
  | none => none
  | some .null => none
  | some (.object fields) => some ((fields.find? fun field => field.1 = name).map Prod.snd)
  | some _ => some none

/-- The key a value is converted to. -/
def propertyKey : Option Json → Option String
  | none => some "undefined"
  | some value => value.toText

/-- The key of `spec.kind`. -/
def kindKey (spec : Option Json) : Option String := (readField spec "kind").bind propertyKey

/-! ### The operation -/

section Operation

-- the text of a property that every object inherits
variable (inheritedText : String → String)

/-- The search of `hasPermission` for a value that is no string. Only `undefined` can equal
an entry; an `undefined` entry has no `endsWith`, and the value has no `startsWith`. -/
def someMatchesOther (isUndefined : Bool) : List (Option String) → Option Bool
  | [] => some false
  | none :: _ => if isUndefined then some true else none
  | some h :: held =>
    if h = "*" then some true
    else if isWildcard h then none
    else someMatchesOther isUndefined held

/-- `userCan` for what a table of nodes has found. -/
def userCanFound (user : AuthUser) : Slot String → Option Bool
  | .own node => userCan user node
  | .inherited => if user.isOwner then some true else someMatchesOther false user.permissions
  | .absent => if user.isOwner then some true else someMatchesOther true user.permissions

/-- Whether a user may run a kind; `none` if the check throws. -/
def canRunTask (user : Option AuthUser) (key : String) : Option Bool :=
  match user with
  | none => some false
  | some user =>
    match userCan user "panel.tasks.run" with
    | some true => userCanFound user (lookup (taskKindPermissions inheritedText) key)
    | other => other

/-- How `tasks/run` ends. -/
inductive RunAnswer where
  /-- A `TypeError`. -/
  | threw
  | refused (message : String)
  /-- The runner is started with the spec. -/
  | started (spec : Json)

def requires (node : String) : String := s!"Requires the \"{node}\" permission"

/-- `tasks/run`, up to the call of the runner. -/
def runTask (user : Option AuthUser) (data : Option Json) : RunAnswer :=
  match readField data "spec" with
  | some (some spec) =>
    match kindKey (some spec) with
    | none => .threw
    | some key =>
      let required := lookup (taskKindPermissions inheritedText) key
      match required with
      | .absent => .refused (requires "unknown")
      | _ =>
        match canRunTask inheritedText user key with
        | none => .threw
        | some true => .started spec
        | some false =>
          .refused (requires (match required with | .own node => node | _ => inheritedText key))
  | _ => .threw

/-- What a spec is dispatched to. -/
inductive Dispatch where
  | handler (feature : String)
  /-- A property of `Object.prototype` is called, if it is a function. -/
  | inherited (key : String)
  | threw
  deriving DecidableEq, Repr

/-- `handlers[spec.kind]` of the runner. -/
def runTaskSpec (spec : Json) : Dispatch :=
  match kindKey (some spec) with
  | none => .threw
  | some key =>
    match lookup (allTaskHandlers inheritedText) key with
    | .own feature => .handler feature
    | .inherited => .inherited key
    | .absent => .threw

end Operation

/-! ### Requests and runs -/

variable {Result : Type}

inductive GateLabel (Result : Type) where
  /-- `tasks/run` is called. The target of the request comes with the label. -/
  | request (user : Option AuthUser) (data : Option Json) (target : Option String) (id : String)
      (now : ℕ)
  | begin (id : String) (now : ℕ)
  | finish (id : String) (outcome : Except String Result) (now : ℕ)

namespace RunnerState

/-- A request that is let through creates a run, and any other leaves the state as it is. -/
def gateStep (inheritedText : String → String) (s : RunnerState Json Result) :
    GateLabel Result → Option (RunnerState Json Result × Option RunAnswer)
  | .request user data target id now =>
    match runTask inheritedText user data with
    | .started spec =>
      (s.step (.start id spec target (user.map fun u => u.id) now)).map fun s' =>
        (s', some (.started spec))
    | answer => some (s, some answer)
  | .begin id now => (s.step (.begin id now)).map fun s' => (s', none)
  | .finish id outcome now => (s.step (.finish id outcome now)).map fun s' => (s', none)

end RunnerState

/-- **Requests and runs under every interleaving**, from the runs of the file. -/
def gateMachine (inheritedText : String → String) (runs : TaskStore Json Result) :
    Machine (RunnerState Json Result) (GateLabel Result) (Option RunAnswer) where
  init := ⟨runs, .empty, runs.keys⟩
  step s l := s.gateStep inheritedText l

/-! ### What the gate is for -/

section Gate

variable (inheritedText : String → String)

/-- A spec of a declared kind, which its own handler runs. -/
structure Declared (spec : Json) (kind : String) : Prop where
  named : readField (some spec) "kind" = some (some (.string kind))
  declared : kind ∈ taskKinds
  handled : ∃ feature, runTaskSpec inheritedText spec = .handler feature

/-- The owner, or a user whose permissions grant both nodes. -/
def MayStart (user : AuthUser) (node : String) : Prop :=
  user.isOwner = true ∨ Grants {p | some p ∈ user.permissions} "panel.tasks.run" ∧
    Grants {p | some p ∈ user.permissions} node

/-- **What a request may do**: start a run of a declared kind that the caller may start. -/
def GateHolds (user : Option AuthUser) (data : Option Json) : Prop :=
  ∀ spec, runTask inheritedText user data = .started spec →
    ∃ kind node caller, Declared inheritedText spec kind ∧
      (taskKindPermissions inheritedText).get? kind = some node ∧ user = some caller ∧
      MayStart caller node

/-- The caller passes the checks of both nodes. -/
def Passes (user : Option AuthUser) (node : String) : Prop :=
  ∃ caller, user = some caller ∧ userCan caller "panel.tasks.run" = some true ∧
    userCan caller node = some true

/-- The caller is the owner, or holds `*` ahead of any other wildcard and of anything that
is `undefined`. -/
def PassesAnything (user : Option AuthUser) : Prop :=
  ∃ caller, user = some caller ∧ (caller.isOwner = true ∨
    caller.permissions.find? (fun e => e.all fun p => p = "*" || isWildcard p) = some (some "*"))

/-- A request whose kind is read as it is written. Where it converts to a kind or to an
inherited name, the caller is one that would be refused anyway. -/
def KindAsWritten (user : Option AuthUser) (data : Option Json) : Prop :=
  ∀ spec key, readField data "spec" = some (some spec) → kindKey (some spec) = some key →
    match lookup (taskKindPermissions inheritedText) key with
    | .absent => True
    | .own node =>
      readField (some spec) "kind" = some (some (.string key)) ∨ ¬Passes user node
    | .inherited => ¬PassesAnything user

end Gate

/-! ### Checks -/

section Checks

variable {inheritedText : String → String} {user : Option AuthUser}

/-- `*` ahead of the other wildcards decides the search for a value that is no string. -/
theorem someMatchesOther_eq_true {held : List (Option String)} :
    someMatchesOther false held = some true ↔
      held.find? (fun e => e.all fun p => p = "*" || isWildcard p) = some (some "*") := by
  induction held with
  | nil => simp [someMatchesOther]
  | cons e held ih =>
    cases e with
    | none => simp [someMatchesOther]
    | some h =>
      rw [someMatchesOther]
      by_cases h_star : h = "*"
      · subst h_star
        simp
      · cases h_wild : isWildcard h with
        | true => simp [h_star, h_wild]
        | false => simp [h_star, h_wild, ih]

/-- It also decides the search for a node. -/
theorem someMatches_of_star {held : List (Option String)} {required : String}
    (h : held.find? (fun e => e.all fun p => p = "*" || isWildcard p) = some (some "*")) :
    someMatches held required = some true := by
  induction held with
  | nil => cases h
  | cons e held ih =>
    cases e with
    | none => simp at h
    | some g =>
      rw [someMatches]
      split
      · rfl
      · next h_match =>
        have h_star : g ≠ "*" := by
          rintro rfl
          exact h_match (permissionMatches_iff.mpr (.all required))
        cases h_wild : isWildcard g with
        | true => simp [h_star, h_wild] at h
        | false =>
          refine ih ?_
          simpa [h_star, h_wild] using h

theorem userCan_owner {caller : AuthUser} (h : caller.isOwner = true) (node : String) :
    userCan caller node = some true := by
  rw [userCan, if_pos h]

/-- A satisfied check is backed by the owner's flag or by what is held. -/
theorem userCan_sound {caller : AuthUser} {node : String} (h : userCan caller node = some true) :
    caller.isOwner = true ∨ Grants {p | some p ∈ caller.permissions} node := by
  rw [userCan] at h
  split at h
  case isTrue h_owner => exact .inl h_owner
  case isFalse => exact .inr (hasPermission_sound h)

/-- What the two gates ask of a caller, in order. -/
theorem canRunTask_some {caller : AuthUser} {key : String} :
    canRunTask inheritedText (some caller) key = some true ↔
      userCan caller "panel.tasks.run" = some true ∧
        userCanFound caller (lookup (taskKindPermissions inheritedText) key) = some true := by
  unfold canRunTask
  dsimp only
  split
  · next h_run =>
    rw [h_run]
    simp
  · next h_run =>
    constructor
    · intro h_can
      exact absurd h_can h_run
    · rintro ⟨h_can, -⟩
      exact absurd h_can h_run

theorem canRunTask_own {key node : String}
    (h : lookup (taskKindPermissions inheritedText) key = .own node) :
    canRunTask inheritedText user key = some true ↔ Passes user node := by
  cases user with
  | none => simp [canRunTask, Passes]
  | some caller =>
    rw [canRunTask_some, h]
    constructor
    · rintro ⟨h_run, h_can⟩
      exact ⟨caller, rfl, h_run, h_can⟩
    · rintro ⟨caller', h_caller, h_run, h_can⟩
      obtain rfl := Option.some.inj h_caller
      exact ⟨h_run, h_can⟩

theorem userCanFound_inherited {caller : AuthUser} :
    userCanFound caller .inherited = some true ↔ PassesAnything (some caller) := by
  unfold userCanFound PassesAnything
  cases h_owner : caller.isOwner with
  | true => simp [h_owner]
  | false =>
    rw [if_neg (by simp), someMatchesOther_eq_true]
    simp [h_owner]

/-- Who passes the check of something that is no node passes the one before it. -/
theorem PassesAnything.run {caller : AuthUser} (h : PassesAnything (some caller)) :
    userCan caller "panel.tasks.run" = some true := by
  obtain ⟨caller', h_caller, h_star⟩ := h
  obtain rfl := Option.some.inj h_caller
  obtain h_owner | h_star := h_star
  · exact userCan_owner h_owner _
  · rw [userCan]
    split
    · rfl
    · rw [hasPermission, if_neg (by decide)]
      exact someMatches_of_star h_star

theorem canRunTask_inherited {key : String}
    (h : lookup (taskKindPermissions inheritedText) key = .inherited) :
    canRunTask inheritedText user key = some true ↔ PassesAnything user := by
  cases user with
  | none => simp [canRunTask, PassesAnything]
  | some caller =>
    rw [canRunTask_some, h, userCanFound_inherited]
    exact ⟨And.right, fun h_any => ⟨h_any.run, h_any⟩⟩

end Checks

/-! ### The theorem -/

section Theorem

variable {inheritedText : String → String} {user : Option AuthUser} {data : Option Json}
  {spec : Json}

/-- **When a run is started**: the kind converts to a key that finds something, and the
caller passes the check of it. -/
theorem runTask_started :
    runTask inheritedText user data = .started spec ↔
      readField data "spec" = some (some spec) ∧ ∃ key, kindKey (some spec) = some key ∧
        lookup (taskKindPermissions inheritedText) key ≠ .absent ∧
        canRunTask inheritedText user key = some true := by
  constructor
  · intro h
    unfold runTask at h
    split at h
    · next spec' h_spec =>
      split at h
      · cases h
      · next key h_key =>
        dsimp only at h
        split at h
        · cases h
        · next h_found =>
          split at h
          · cases h
          · next h_can =>
            obtain rfl := RunAnswer.started.inj h
            exact ⟨h_spec, key, h_key, h_found, h_can⟩
          · cases h
    · cases h
  · rintro ⟨h_spec, key, h_key, h_found, h_can⟩
    rw [runTask, h_spec]
    dsimp only
    rw [h_key]
    dsimp only
    split
    · next h_absent => exact absurd h_absent h_found
    · rw [h_can]

/-- A kind that is a string is its own key. -/
theorem kindKey_string {kind : String}
    (h : readField (some spec) "kind" = some (some (.string kind))) :
    kindKey (some spec) = some kind := by
  rw [kindKey, h]
  rfl

/-- A gated kind, written as a string, is declared and has its handler. -/
theorem declared_of_own {kind node : String}
    (h_own : lookup (taskKindPermissions inheritedText) kind = .own node)
    (h_kind : readField (some spec) "kind" = some (some (.string kind))) :
    Declared inheritedText spec kind := by
  have h_get : (taskKindPermissions inheritedText).get? kind = some node := get?_of_lookup h_own
  obtain ⟨h_gated, h_handled⟩ := kinds_agree inheritedText kind
  have h_declared : kind ∈ taskKinds := h_gated.mpr (Option.isSome_iff_exists.mpr ⟨node, h_get⟩)
  obtain ⟨feature, h_feature⟩ := Option.isSome_iff_exists.mp (h_handled.mp h_declared)
  refine ⟨h_kind, h_declared, feature, ?_⟩
  rw [runTaskSpec, kindKey_string h_kind]
  dsimp only
  rw [lookup_own h_feature]

/-- What passes both checks may start the kind. -/
theorem Passes.mayStart {node : String} (h : Passes user node) :
    ∃ caller, user = some caller ∧ MayStart caller node := by
  obtain ⟨caller, h_user, h_run, h_node⟩ := h
  refine ⟨caller, h_user, ?_⟩
  obtain h_owner | h_run := userCan_sound h_run
  · exact .inl h_owner
  · obtain h_owner | h_node := userCan_sound h_node
    · exact .inl h_owner
    · exact .inr ⟨h_run, h_node⟩

theorem gateHolds_of_asWritten (h : KindAsWritten inheritedText user data) :
    GateHolds inheritedText user data := by
  intro spec h_started
  obtain ⟨h_spec, key, h_key, h_found, h_can⟩ := (runTask_started).mp h_started
  have h_read := h spec key h_spec h_key
  cases h_slot : lookup (taskKindPermissions inheritedText) key with
  | absent => exact absurd h_slot h_found
  | inherited =>
    rw [h_slot] at h_read
    exact absurd ((canRunTask_inherited h_slot).mp h_can) h_read
  | own node =>
    rw [h_slot] at h_read
    have h_passes : Passes user node := (canRunTask_own h_slot).mp h_can
    have h_kind := h_read.resolve_right fun h_not => h_not h_passes
    obtain ⟨caller, h_user, h_may⟩ := h_passes.mayStart
    exact ⟨key, node, caller, declared_of_own h_slot h_kind, get?_of_lookup h_slot, h_user, h_may⟩

/-- A request that is let through under another reading of its kind breaks the gate. -/
theorem asWritten_of_gateHolds (h : GateHolds inheritedText user data) :
    KindAsWritten inheritedText user data := by
  intro spec key h_spec h_key
  cases h_slot : lookup (taskKindPermissions inheritedText) key with
  | absent => trivial
  | inherited =>
    intro h_passes
    have h_can := (canRunTask_inherited h_slot).mpr h_passes
    obtain ⟨kind, node, caller, h_declared, h_node, -⟩ := h spec
      (runTask_started.mpr ⟨h_spec, key, h_key, by rw [h_slot]; exact nofun, h_can⟩)
    -- the kind is its own key, which finds a node
    obtain rfl := Option.some.inj ((kindKey_string h_declared.named).symm.trans h_key)
    rw [lookup_own h_node] at h_slot
    cases h_slot
  | own node =>
    refine Classical.or_iff_not_imp_right.mpr fun h_not => ?_
    have h_can := (canRunTask_own h_slot).mpr (not_not.mp h_not)
    obtain ⟨kind, -, -, h_declared, -⟩ := h spec
      (runTask_started.mpr ⟨h_spec, key, h_key, by rw [h_slot]; exact nofun, h_can⟩)
    obtain rfl := Option.some.inj ((kindKey_string h_declared.named).symm.trans h_key)
    exact h_declared.named

/-- The requests of a run are read as they are written. -/
def GateLabel.AsWritten (inheritedText : String → String) : GateLabel Result → Prop
  | .request user data _ _ _ => KindAsWritten inheritedText user data
  | _ => True

/-- A request that keeps to the gate adds a run of a declared kind, if any. -/
theorem specsHold_gateStep {s s' : RunnerState Json Result} {l : GateLabel Result}
    {o : Option RunAnswer}
    (hi : SpecsHold (fun spec => ∃ kind, Declared inheritedText spec kind) s)
    (h_l : l.AsWritten inheritedText) (hs : s.gateStep inheritedText l = some (s', o)) :
    SpecsHold (fun spec => ∃ kind, Declared inheritedText spec kind) s' := by
  cases l with
  | request user data target id now =>
    rw [RunnerState.gateStep] at hs
    split at hs
    · next spec h_started =>
      obtain ⟨s₁, h_step, h_eq⟩ := Option.map_eq_some_iff.mp hs
      obtain rfl := (Prod.mk.inj h_eq).1
      obtain ⟨kind, node, caller, h_declared, -⟩ := gateHolds_of_asWritten h_l spec h_started
      refine hi.step h_step fun id' spec' target' userId' now' h_start => ?_
      obtain ⟨-, rfl, -⟩ := RunnerLabel.start.inj h_start
      exact ⟨kind, h_declared⟩
    · obtain rfl := (Prod.mk.inj (Option.some.inj hs)).1
      exact hi
  | begin id now =>
    obtain ⟨s₁, h_step, h_eq⟩ := Option.map_eq_some_iff.mp hs
    obtain rfl := (Prod.mk.inj h_eq).1
    exact hi.step h_step (by rintro _ _ _ _ _ ⟨⟩)
  | finish id outcome now =>
    obtain ⟨s₁, h_step, h_eq⟩ := Option.map_eq_some_iff.mp hs
    obtain rfl := (Prod.mk.inj h_eq).1
    exact hi.step h_step (by rintro _ _ _ _ _ ⟨⟩)

/-- **The task gate.** A request keeps to the gate exactly when its kind is read as it is
written; in every state of every run of such requests, each stored run has a declared kind,
which its own handler runs; and the union, the registry and the handlers agree on what is
declared. -/
theorem task_gate (inheritedText : String → String) :
    (∀ user data, GateHolds inheritedText user data ↔ KindAsWritten inheritedText user data) ∧
    (∀ (Result : Type) (runs : TaskStore Json Result),
      (∀ id run, runs.get? id = some run → ∃ kind, Declared inheritedText run.spec kind) →
      ∀ tr s, (gateMachine inheritedText runs).RunWhen (fun _ l => l.AsWritten inheritedText) tr s →
      ∀ id run, s.store.get? id = some run → ∃ kind, Declared inheritedText run.spec kind) ∧
    ∀ kind, (kind ∈ taskKinds ↔ ((taskKindPermissions inheritedText).get? kind).isSome = true) ∧
      (kind ∈ taskKinds ↔ ((allTaskHandlers inheritedText).get? kind).isSome = true) := by
  refine ⟨fun user data => ⟨asWritten_of_gateHolds, gateHolds_of_asWritten⟩, ?_,
    kinds_agree inheritedText⟩
  intro Result runs h_runs tr s h
  have h_init : SpecsHold (fun spec => ∃ kind, Declared inheritedText spec kind)
      (gateMachine inheritedText runs).init := ⟨h_runs, (by rintro id run ⟨⟩)⟩
  have h_specs : SpecsHold (fun spec => ∃ kind, Declared inheritedText spec kind) s :=
    h.invariant h_init fun _ _ _ _ hi h_l hs => specsHold_gateStep hi h_l hs
  exact h_specs.stored

end Theorem

/-! ### Names that are inherited -/

/-- A request to run a kind. -/
def runRequest (kind : Json) : Option Json :=
  some (.object [("spec", .object [("kind", kind)]), ("target", .null)])

/-- The engine of the samples. -/
def nativeText (name : String) : String := "function " ++ name ++ "() { [native code] }"

/-- A user with the permissions. -/
def taskUser (isOwner : Bool) (permissions : List String) : AuthUser :=
  ⟨⟨"u1", "ada", isOwner, [], 0, none, none⟩, permissions.map some⟩

/-- An inherited name finds neither a node nor a handler. -/
theorem lookup_kind_inherited (inheritedText : String → String) {name : String}
    (h : name ∈ inheritedNames) :
    lookup (taskKindPermissions inheritedText) name = .inherited ∧
      lookup (allTaskHandlers inheritedText) name = .inherited := by
  have h_undeclared : name ∉ taskKinds := by
    have h_all : ∀ n ∈ inheritedNames, n ∉ taskKinds := by decide
    exact h_all name h
  obtain ⟨h_gated, h_handled⟩ := kinds_agree inheritedText name
  constructor
  · refine lookup_inherited (Option.not_isSome_iff_eq_none.mp fun h_some => ?_) h
    exact h_undeclared (h_gated.mpr h_some)
  · refine lookup_inherited (Option.not_isSome_iff_eq_none.mp fun h_some => ?_) h
    exact h_undeclared (h_handled.mpr h_some)

/-- Whoever passes any check starts a run of every inherited name. -/
theorem inherited_started (inheritedText : String → String) {user : Option AuthUser}
    (h_user : PassesAnything user) {name : String} (h : name ∈ inheritedNames) :
    runTask inheritedText user (runRequest (.string name)) =
        .started (.object [("kind", .string name)]) ∧
      runTaskSpec inheritedText (.object [("kind", .string name)]) = .inherited name := by
  obtain ⟨h_found, h_handler⟩ := lookup_kind_inherited inheritedText h
  have h_key : kindKey (some (.object [("kind", .string name)])) = some name := rfl
  constructor
  · refine (runTask_started).mpr ⟨rfl, name, h_key, by rw [h_found]; exact nofun, ?_⟩
    exact (canRunTask_inherited h_found).mpr h_user
  · rw [runTaskSpec, h_key]
    dsimp only
    rw [h_handler]

/-- A request that is let through is stored. -/
theorem started_stored (inheritedText : String → String)
    (ok : RunnerState Json Unit → GateLabel Unit → Prop) {user : Option AuthUser}
    {data : Option Json} {spec : Json} (h_started : runTask inheritedText user data = .started spec)
    (h_ok : ok ⟨.empty, .empty, []⟩ (.request user data none "r1" 0)) :
    ∃ tr s, (gateMachine inheritedText (.empty : TaskStore Json Unit)).RunWhen ok tr s ∧
      s.store.get? "r1" = some (newRun "r1" spec none (user.map fun u => u.id) 0) := by
  have h_step : RunnerState.gateStep inheritedText (⟨.empty, .empty, []⟩ : RunnerState Json Unit)
      (.request user data none "r1" 0) = some (⟨TaskStore.put .empty
        (newRun "r1" spec none (user.map fun u => u.id) 0), Table.set .empty "r1"
        (newRun "r1" spec none (user.map fun u => u.id) 0), ["r1"]⟩, some (.started spec)) := by
    rw [RunnerState.gateStep, h_started]
    rfl
  exact ⟨_, _, .step .init h_ok h_step, rfl⟩

/-- An array of one kind is read as the kind. -/
theorem array_started :
    runTask nativeText (some (taskUser false ["panel.tasks.run", "panel.exec"]))
      (runRequest (.array [.string "cmd"])) =
        .started (.object [("kind", .array [.string "cmd"])]) := by
  have h_node : (taskKindPermissions nativeText).get? "cmd" = some "panel.exec" :=
    taskKindPermissions_get?.mpr (by decide)
  refine (runTask_started).mpr ⟨rfl, "cmd", by decide, ?_, ?_⟩
  · rw [lookup_own h_node]
    exact nofun
  · exact (canRunTask_own (lookup_own h_node)).mpr ⟨_, rfl, by decide, by decide⟩

/-- **A run of `constructor`.** The owner starts it, and so does a user who holds `*` only;
it is stored, and no handler is there for it. An array of a kind is let through too. -/
theorem constructor_runs :
    ¬ GateHolds nativeText (some (taskUser true [])) (runRequest (.string "constructor")) ∧
    ¬ GateHolds nativeText (some (taskUser false ["*"])) (runRequest (.string "constructor")) ∧
    ¬ GateHolds nativeText (some (taskUser false ["panel.tasks.run", "panel.exec"]))
        (runRequest (.array [.string "cmd"])) ∧
    ∃ tr s run, (gateMachine nativeText (.empty : TaskStore Json Unit)).Run tr s ∧
      s.store.get? "r1" = some run ∧
      readField (some run.spec) "kind" = some (some (.string "constructor")) ∧
      runTaskSpec nativeText run.spec = .inherited "constructor" := by
  have h_name : "constructor" ∈ inheritedNames := by decide
  have h_owner : PassesAnything (some (taskUser true [])) := ⟨_, rfl, .inl rfl⟩
  have h_star : PassesAnything (some (taskUser false ["*"])) := ⟨_, rfl, .inr (by decide)⟩
  have h_breaks : ∀ user, PassesAnything user →
      ¬ GateHolds nativeText user (runRequest (.string "constructor")) := by
    intro user h_user h
    obtain ⟨kind, node, caller, h_declared, -⟩ := h _ (inherited_started nativeText h_user h_name).1
    obtain ⟨feature, h_handler⟩ := h_declared.handled
    rw [(inherited_started nativeText h_user h_name).2] at h_handler
    cases h_handler
  obtain ⟨h_started, h_handler⟩ := inherited_started nativeText h_owner h_name
  obtain ⟨tr, s, h_run, h_stored⟩ := started_stored nativeText (fun _ _ => True) h_started trivial
  refine ⟨h_breaks _ h_owner, h_breaks _ h_star, fun h => ?_, tr, s, _, h_run, h_stored, rfl,
    h_handler⟩
  obtain ⟨kind, node, caller, h_declared, -⟩ := h _ array_started
  cases Option.some.inj (Option.some.inj h_declared.named)

/-- A kind that is a string and no inherited name is read as it is written. -/
theorem asWritten_string {inheritedText : String → String} {user : Option AuthUser} {kind : String}
    (h : kind ∉ inheritedNames) : KindAsWritten inheritedText user (runRequest (.string kind)) := by
  intro spec key h_spec h_key
  obtain rfl := Option.some.inj (Option.some.inj h_spec)
  obtain rfl := Option.some.inj h_key
  cases h_slot : lookup (taskKindPermissions inheritedText) kind with
  | absent => trivial
  | own node => exact .inl rfl
  | inherited => exact absurd (inherited_of_lookup h_slot) h

/-- A user with both nodes starts a service action. -/
theorem task_gate_sample :
    GateHolds nativeText (some (taskUser false ["panel.tasks.run", "panel.systemd.write"]))
        (runRequest (.string "service_action")) ∧
      ∃ tr s run, (gateMachine nativeText (.empty : TaskStore Json Unit)).RunWhen
          (fun _ l => l.AsWritten nativeText) tr s ∧
        s.store.get? "r1" = some run ∧ ∃ kind, Declared nativeText run.spec kind := by
  have h_written : KindAsWritten nativeText
      (some (taskUser false ["panel.tasks.run", "panel.systemd.write"]))
      (runRequest (.string "service_action")) := asWritten_string (by decide)
  have h_node : (taskKindPermissions nativeText).get? "service_action" =
      some "panel.systemd.write" := taskKindPermissions_get?.mpr (by decide +kernel)
  have h_started : runTask nativeText
      (some (taskUser false ["panel.tasks.run", "panel.systemd.write"]))
      (runRequest (.string "service_action")) =
        .started (.object [("kind", .string "service_action")]) := by
    refine runTask_started.mpr ⟨rfl, "service_action", rfl, ?_, ?_⟩
    · rw [lookup_own h_node]
      exact nofun
    · exact (canRunTask_own (lookup_own h_node)).mpr
        ⟨_, rfl, by decide +kernel, by decide +kernel⟩
  obtain ⟨tr, s, h_run, h_stored⟩ := started_stored nativeText
    (fun _ l => l.AsWritten nativeText) h_started h_written
  obtain ⟨h_gate, h_runs, -⟩ := task_gate nativeText
  exact ⟨(h_gate _ _).mpr h_written, tr, s, _, h_run, h_stored,
    h_runs Unit .empty (by rintro id run ⟨⟩) tr s h_run "r1" _ h_stored⟩

end ServerCentral.Tasks
