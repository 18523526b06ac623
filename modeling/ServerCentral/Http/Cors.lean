import ServerCentral.Auth.Store
import Mathlib.Data.List.Basic

/-!
# The cross-origin gate

Two readers share one list of allowed origins: `originAllowsRequest` lets a state-changing
request through, and `corsHeaders` says who may read a response. The list is built from texts of
the configuration by the URL parser of the platform, here a parameter: a text may not parse, and
what parses may have an opaque origin, which is written `null`.

`gated_iff` says for which configurations and requests both readers fail closed.
-/

namespace ServerCentral.Http

open Auth (trim)

/-! ### Origins -/

/-- The scheme, host and port of an origin; the port is left out where it is the default one. -/
structure Origin where
  scheme : String
  host : String
  port : Option ℕ
  deriving DecidableEq, Repr

/-- The text of an origin in headers. -/
def Origin.serialize (o : Origin) : String :=
  o.scheme ++ "://" ++ o.host ++ (o.port.map fun p => ":" ++ toString p).getD ""

/-- What is read of a parsed URL. -/
structure Url where
  /-- There is none if the origin is opaque. -/
  origin : Option Origin
  /-- The host with its port. -/
  host : String
  deriving DecidableEq, Repr

/-- `url.origin` -/
def Url.originText (u : Url) : String := (u.origin.map Origin.serialize).getD "null"

section Cors

-- `new URL(text)`, with nothing for a text it throws on.
variable (parse : String → Option Url)

def originOf (url : String) : Option String := (parse url).map Url.originText

def pushNew (out : List String) (o : String) : List String := if o ∈ out then out else out ++ [o]

/-- What the loop adds for one configured entry. -/
def normalized (entry : String) : Option String :=
  let trimmed := trim entry
  if trimmed = "" then none else if trimmed = "*" then some "*" else originOf parse trimmed

def resolveAllowedOrigins (configured : List String) (primaryUrl : Option String) : List String :=
  let out := (configured.filterMap (normalized parse)).foldl pushNew []
  match (primaryUrl.filter (· ≠ "")).bind (originOf parse) with
  | some primary => pushNew out primary
  | none => out

structure CorsHeaders where
  allowMethods : String
  allowHeaders : String
  vary : Option String
  allowOrigin : Option String
  deriving DecidableEq, Repr

def corsHeaders (origin : Option String) (allowed : List String) : CorsHeaders :=
  let base : CorsHeaders := ⟨"POST, OPTIONS", "Content-Type, Authorization", none, none⟩
  if allowed = [] ∨ "*" ∈ allowed then { base with allowOrigin := some "*" }
  else
    { base with
      vary := some "Origin"
      allowOrigin := (origin.filter (· ≠ "")).filter (· ∈ allowed) }

/-- Whether a text has `://` in it. -/
def hasScheme (text : String) : Bool := text.toList.tails.any fun rest => "://".toList.isPrefixOf rest

def hostOf (value : String) : Option String :=
  let trimmed := trim value
  if trimmed = "" then none
  else (parse (if hasScheme trimmed then trimmed else "http://" ++ trimmed)).map fun u =>
    u.host.map Char.toLower

def originAllowsRequest (origin : Option String) (hosts : List (Option String))
    (allowed : List String) : Bool :=
  match origin.filter (· ≠ "") with
  | none => true
  | some origin =>
    if "*" ∈ allowed ∨ origin ∈ allowed then true
    else
      match hostOf parse origin with
      | none => false
      | some sender => hosts.any fun host => host.bind (hostOf parse) = some sender

/-- The headers of a request that the gate looks at. -/
structure GateHeaders where
  origin : Option String
  host : Option String
  forwardedHost : Option String
  deriving DecidableEq, Repr

/-- The hosts a request may claim to be. -/
def GateHeaders.hosts (req : GateHeaders) : List (Option String) :=
  req.host :: ((req.forwardedHost.getD "").splitOn ",").map some

def originAllowed (req : GateHeaders) (allowed : List String) : Bool :=
  originAllowsRequest parse req.origin req.hosts allowed

/-! ### What is configured -/

/-- The wildcard is among the entries. -/
def Star (configured : List String) : Prop := ∃ entry ∈ configured, trim entry = "*"

/-- The entries that are not blank, and the primary URL. -/
def configuredTexts (configured : List String) (primaryUrl : Option String) : List String :=
  (configured.map trim).filter (· ≠ "") ++ (primaryUrl.filter (· ≠ "")).toList

/-- The origin is that of a configured text: the same scheme, host and port. -/
def SameOrigin (origin text : String) : Prop :=
  ∃ u o, parse text = some u ∧ u.origin = some o ∧ origin = o.serialize

/-- Both have the same host and port. -/
def SameHost (origin host : String) : Prop :=
  ∃ h, hostOf parse origin = some h ∧ hostOf parse host = some h

/-- What holds of the two readers: a request is let through only for a reason, the opaque origin
never, and everyone may read only where nothing is configured, the wildcard apart. -/
structure Gated (configured : List String) (primaryUrl : Option String) (req : GateHeaders) :
    Prop where
  reason : originAllowed parse req (resolveAllowedOrigins parse configured primaryUrl) = true →
    req.origin.filter (· ≠ "") = none ∨ Star configured ∨ ∃ origin, req.origin = some origin ∧
      ((∃ text ∈ configuredTexts configured primaryUrl, SameOrigin parse origin text) ∨
        ∃ host, some host ∈ req.hosts ∧ SameHost parse origin host)
  null : ¬Star configured → req.origin = some "null" →
    originAllowed parse req (resolveAllowedOrigins parse configured primaryUrl) = false
  wildcard : (corsHeaders req.origin (resolveAllowedOrigins parse configured primaryUrl)).allowOrigin =
    some "*" → configuredTexts configured primaryUrl = [] ∨ Star configured

/-- The configuration has the wildcard; or the origin is not `null`, or no text has an opaque
origin and no host is called `null`; and some text parses, or there is none. -/
def FailsClosed (configured : List String) (primaryUrl : Option String) (req : GateHeaders) : Prop :=
  Star configured ∨
    (req.origin = some "null" →
      (∀ text ∈ configuredTexts configured primaryUrl, ∀ u, parse text = some u → u.origin ≠ none) ∧
      ∀ host, some host ∈ req.hosts → ¬SameHost parse "null" host) ∧
    (configuredTexts configured primaryUrl = [] ∨
      ∃ text ∈ configuredTexts configured primaryUrl, (parse text).isSome = true)

variable {parse} {configured : List String} {primaryUrl : Option String} {req : GateHeaders}

/-! ### The list -/

theorem mem_pushNew {out : List String} {o x : String} : x ∈ pushNew out o ↔ x ∈ out ∨ x = o := by
  rw [pushNew]
  split
  · next h =>
    constructor
    · exact .inl
    · rintro (h_x | rfl)
      · exact h_x
      · exact h
  · rw [List.mem_append, List.mem_singleton]

theorem mem_foldl_pushNew {l out : List String} {x : String} :
    x ∈ l.foldl pushNew out ↔ x ∈ out ∨ x ∈ l := by
  induction l generalizing out with
  | nil => simp
  | cons o l ih => rw [List.foldl_cons, ih, mem_pushNew, List.mem_cons, or_assoc]

theorem mem_resolve {x : String} : x ∈ resolveAllowedOrigins parse configured primaryUrl ↔
    (∃ entry ∈ configured, normalized parse entry = some x) ∨
      ∃ primary, primaryUrl.filter (· ≠ "") = some primary ∧ originOf parse primary = some x := by
  have h_entries : x ∈ (configured.filterMap (normalized parse)).foldl pushNew [] ↔
      ∃ entry ∈ configured, normalized parse entry = some x := by
    rw [mem_foldl_pushNew, List.mem_filterMap]
    simp
  rw [resolveAllowedOrigins]
  split
  · next primary h_primary =>
    obtain ⟨text, h_text, h_origin⟩ := Option.bind_eq_some_iff.mp h_primary
    rw [mem_pushNew, h_entries]
    refine or_congr_right ⟨?_, ?_⟩
    · rintro rfl
      exact ⟨text, h_text, h_origin⟩
    · rintro ⟨text', h_text', h_x⟩
      obtain rfl := Option.some.inj (h_text.symm.trans h_text')
      exact Option.some.inj (h_x.symm.trans h_origin)
  · next h_none =>
    rw [h_entries]
    refine (or_iff_left ?_).symm
    rintro ⟨text, h_text, h_x⟩
    rw [h_text, Option.bind_some, h_x] at h_none
    cases h_none

/-- A serialized origin has a colon in it. -/
theorem originText_ne_star (u : Url) : u.originText ≠ "*" := by
  rw [Url.originText]
  cases u.origin with
  | none => decide
  | some o =>
    intro h
    have h_colon : ':' ∈ o.serialize.toList := by
      simp [Origin.serialize]
    have h_list : o.serialize = "*" := h
    rw [h_list] at h_colon
    exact absurd h_colon (by decide)

theorem originOf_eq_some {text x : String} :
    originOf parse text = some x ↔ ∃ u, parse text = some u ∧ x = u.originText := by
  rw [originOf, Option.map_eq_some_iff]
  simp only [eq_comm]

theorem star_mem_allowed :
    "*" ∈ resolveAllowedOrigins parse configured primaryUrl ↔ Star configured := by
  have h_origin : ∀ text, originOf parse text ≠ some "*" := by
    intro text h
    obtain ⟨u, -, h_u⟩ := (originOf_eq_some).mp h
    exact originText_ne_star u h_u.symm
  rw [mem_resolve]
  constructor
  · rintro (⟨entry, h_entry, h_star⟩ | ⟨primary, -, h_star⟩)
    · rw [normalized] at h_star
      split at h_star
      · cases h_star
      · split at h_star
        · next h_trim => exact ⟨entry, h_entry, h_trim⟩
        · exact absurd h_star (h_origin _)
    · exact absurd h_star (h_origin primary)
  · rintro ⟨entry, h_entry, h_trim⟩
    refine .inl ⟨entry, h_entry, ?_⟩
    rw [normalized, h_trim]
    rfl

/-- **The list** without the wildcard: the origins of what parses. -/
theorem mem_allowed (h_star : ¬Star configured) {x : String} :
    x ∈ resolveAllowedOrigins parse configured primaryUrl ↔
      ∃ text ∈ configuredTexts configured primaryUrl, originOf parse text = some x := by
  have h_entry : ∀ entry ∈ configured, normalized parse entry = some x ↔
      trim entry ≠ "" ∧ originOf parse (trim entry) = some x := by
    intro entry h_mem
    have h_trim : trim entry ≠ "*" := fun h => h_star ⟨entry, h_mem, h⟩
    rw [normalized, if_neg h_trim]
    split <;> simp_all
  rw [mem_resolve, configuredTexts]
  simp only [List.mem_append, List.mem_filter, List.mem_map, Option.mem_toList]
  constructor
  · rintro (⟨entry, h_mem, h_x⟩ | ⟨primary, h_primary, h_x⟩)
    · obtain ⟨h_some, h_origin⟩ := (h_entry entry h_mem).mp h_x
      exact ⟨trim entry, .inl ⟨⟨entry, h_mem, rfl⟩, decide_eq_true h_some⟩, h_origin⟩
    · exact ⟨primary, .inr h_primary, h_x⟩
  · rintro ⟨text, ⟨⟨entry, h_mem, rfl⟩, h_some⟩ | h_primary, h_x⟩
    · exact .inl ⟨entry, h_mem, (h_entry entry h_mem).mpr ⟨of_decide_eq_true h_some, h_x⟩⟩
    · exact .inr ⟨text, h_primary, h_x⟩

/-- The list is empty where nothing parses. -/
theorem allowed_eq_nil (h_star : ¬Star configured) :
    resolveAllowedOrigins parse configured primaryUrl = [] ↔
      ∀ text ∈ configuredTexts configured primaryUrl, parse text = none := by
  rw [List.eq_nil_iff_forall_not_mem]
  simp only [mem_allowed h_star, not_exists, not_and]
  constructor
  · intro h text h_text
    cases h_parse : parse text with
    | none => rfl
    | some u => exact absurd (originOf_eq_some.mpr ⟨u, h_parse, rfl⟩) (h u.originText text h_text)
  · intro h x text h_text h_x
    obtain ⟨u, h_parse, -⟩ := (originOf_eq_some).mp h_x
    rw [h text h_text] at h_parse
    cases h_parse

/-! ### The two readers -/

/-- **When a request is let through.** -/
theorem originAllowed_iff {allowed : List String} : originAllowed parse req allowed = true ↔
    req.origin.filter (· ≠ "") = none ∨ ∃ origin, req.origin = some origin ∧ origin ≠ "" ∧
      ("*" ∈ allowed ∨ origin ∈ allowed ∨
        ∃ host, some host ∈ req.hosts ∧ SameHost parse origin host) := by
  rw [originAllowed, originAllowsRequest]
  split
  · next h_none => exact iff_of_true rfl (.inl h_none)
  · next origin h_origin =>
    have h_some : req.origin.filter (· ≠ "") ≠ none := by
      rw [h_origin]
      exact Option.some_ne_none _
    obtain ⟨h_req, h_text⟩ := Option.filter_eq_some_iff.mp h_origin
    rw [or_iff_right h_some]
    have h_unique : (∃ o, req.origin = some o ∧ o ≠ "" ∧ ("*" ∈ allowed ∨ o ∈ allowed ∨
        ∃ host, some host ∈ req.hosts ∧ SameHost parse o host)) ↔
        "*" ∈ allowed ∨ origin ∈ allowed ∨
          ∃ host, some host ∈ req.hosts ∧ SameHost parse origin host := by
      constructor
      · rintro ⟨o, h_o, -, h⟩
        obtain rfl := Option.some.inj (h_req.symm.trans h_o)
        exact h
      · exact fun h => ⟨origin, h_req, of_decide_eq_true h_text, h⟩
    rw [h_unique]
    split
    · next h_listed => exact iff_of_true rfl (or_assoc.mp (.inl h_listed))
    · next h_listed =>
      rw [← or_assoc, or_iff_right h_listed]
      cases h_from : hostOf parse origin with
      | none =>
        refine iff_of_false (by simp) ?_
        rintro ⟨host, -, h, h_host, -⟩
        rw [h_from] at h_host
        cases h_host
      | some h =>
        simp only [List.any_eq_true, decide_eq_true_eq]
        constructor
        · rintro ⟨host, h_mem, h_host⟩
          obtain ⟨text, rfl, h_same⟩ := Option.bind_eq_some_iff.mp h_host
          exact ⟨text, h_mem, h, h_from, h_same⟩
        · rintro ⟨text, h_mem, h', h_from', h_same⟩
          obtain rfl := Option.some.inj (h_from.symm.trans h_from')
          exact ⟨some text, h_mem, h_same⟩

/-- **When everyone may read** the response. -/
theorem wildcard_iff (origin : Option String) {allowed : List String} :
    (corsHeaders origin allowed).allowOrigin = some "*" ↔ allowed = [] ∨ "*" ∈ allowed := by
  rw [corsHeaders]
  dsimp only
  split
  · next h => exact iff_of_true rfl h
  · next h =>
    refine iff_of_false (fun h_star => ?_) h
    obtain ⟨-, h_mem⟩ := Option.filter_eq_some_iff.mp h_star
    exact h (.inr (of_decide_eq_true h_mem))

/-- The opaque origin is let through for a text of an opaque origin, or a host called `null`. -/
theorem null_allowed_iff (h_star : ¬Star configured) (h_null : req.origin = some "null") :
    originAllowed parse req (resolveAllowedOrigins parse configured primaryUrl) = true ↔
      (∃ text ∈ configuredTexts configured primaryUrl, originOf parse text = some "null") ∨
        ∃ host, some host ∈ req.hosts ∧ SameHost parse "null" host := by
  rw [originAllowed_iff, star_mem_allowed, h_null]
  constructor
  · rintro (h_none | ⟨origin, h_origin, -, h | h | h⟩)
    · exact absurd h_none (by decide)
    · exact absurd h h_star
    · obtain rfl := Option.some.inj h_origin
      exact .inl ((mem_allowed h_star).mp h)
    · obtain rfl := Option.some.inj h_origin
      exact .inr h
  · rintro (h | h)
    · exact .inr ⟨"null", rfl, by decide, .inr (.inl ((mem_allowed h_star).mpr h))⟩
    · exact .inr ⟨"null", rfl, by decide, .inr (.inr h)⟩

/-- A tuple of scheme, host and port is not written as `null`. -/
theorem serialize_ne_null (o : Origin) : o.serialize ≠ "null" := by
  intro h
  have h_colon : ':' ∈ o.serialize.toList := by
    simp [Origin.serialize]
  rw [h] at h_colon
  exact absurd h_colon (by decide)

theorem originText_eq_null {u : Url} : u.originText = "null" ↔ u.origin = none := by
  rw [Url.originText]
  cases u.origin with
  | none => simp
  | some o => simp [serialize_ne_null]

/-- **Main result.** The gate fails closed exactly where the wildcard is configured, or where no
opaque origin and no host of that name can stand behind `null`, and not everything that is
configured fails to parse. -/
theorem gated_iff (parse : String → Option Url) (configured : List String)
    (primaryUrl : Option String) (req : GateHeaders) :
    Gated parse configured primaryUrl req ↔ FailsClosed parse configured primaryUrl req := by
  by_cases h_star : Star configured
  · refine iff_of_true ⟨fun _ => .inr (.inl h_star), fun h => absurd h_star h, fun _ => .inr h_star⟩
      (.inl h_star)
  · rw [FailsClosed, or_iff_right h_star]
    constructor
    · rintro ⟨-, h_null, h_wildcard⟩
      constructor
      · intro h_origin
        have h_refused := h_null h_star h_origin
        rw [Bool.eq_false_iff, ne_eq, null_allowed_iff h_star h_origin, not_or] at h_refused
        obtain ⟨h_texts, h_hosts⟩ := h_refused
        refine ⟨fun text h_text u h_parse h_sandbox => ?_, fun host h_host h_same => ?_⟩
        · exact h_texts ⟨text, h_text, originOf_eq_some.mpr
            ⟨u, h_parse, (originText_eq_null.mpr h_sandbox).symm⟩⟩
        · exact h_hosts ⟨host, h_host, h_same⟩
      · by_cases h_parsed : ∃ text ∈ configuredTexts configured primaryUrl, (parse text).isSome = true
        · exact .inr h_parsed
        · have h_none : ∀ text ∈ configuredTexts configured primaryUrl, parse text = none := by
            intro text h_text
            by_contra h_some
            exact h_parsed ⟨text, h_text, Option.isSome_iff_ne_none.mpr h_some⟩
          have h_open := (wildcard_iff req.origin).mpr (.inl ((allowed_eq_nil h_star).mpr h_none))
          exact .inl ((h_wildcard h_open).resolve_right h_star)
    · rintro ⟨h_null, h_texts⟩
      refine ⟨fun h => ?_, fun _ h_origin => ?_, fun h => ?_⟩
      · obtain h_none | ⟨origin, h_origin, -, h | h | h⟩ := originAllowed_iff.mp h
        · exact .inl h_none
        · exact .inr (.inl (star_mem_allowed.mp h))
        · obtain ⟨text, h_text, h_x⟩ := (mem_allowed h_star).mp h
          obtain ⟨u, h_parse, rfl⟩ := originOf_eq_some.mp h_x
          refine .inr (.inr ⟨_, h_origin, .inl ⟨text, h_text, ?_⟩⟩)
          cases h_o : u.origin with
          | none =>
            -- An opaque origin is written `null`, which is not configured.
            rw [originText_eq_null.mpr h_o] at h_origin
            exact absurd h_o ((h_null h_origin).1 text h_text u h_parse)
          | some o => exact ⟨u, o, h_parse, h_o, by rw [Url.originText, h_o]; rfl⟩
        · exact .inr (.inr ⟨origin, h_origin, .inr h⟩)
      · rw [Bool.eq_false_iff, ne_eq, null_allowed_iff h_star h_origin]
        obtain ⟨h_sandbox, h_hosts⟩ := h_null h_origin
        rintro (⟨text, h_text, h_x⟩ | ⟨host, h_host, h_same⟩)
        · obtain ⟨u, h_parse, h_u⟩ := originOf_eq_some.mp h_x
          exact h_sandbox text h_text u h_parse (originText_eq_null.mp h_u.symm)
        · exact h_hosts host h_host h_same
      · obtain h_nil | h_mem := (wildcard_iff req.origin).mp h
        · obtain h_texts | ⟨text, h_text, h_parse⟩ := h_texts
          · exact .inl h_texts
          · rw [(allowed_eq_nil h_star).mp h_nil text h_text] at h_parse
            cases h_parse
        · exact .inr (star_mem_allowed.mp h_mem)

/-- **A host and port without a scheme** has an opaque origin, and lets every opaque origin in. -/
theorem null_let_through : ¬∀ (parse : String → Option Url) configured primaryUrl req,
    Gated parse configured primaryUrl req := by
  intro h
  -- The scheme of this text is what precedes its colon.
  have h_gated := h (fun text => if text = "sc.example.com:8080" then some ⟨none, ""⟩ else none)
    ["sc.example.com:8080"] none ⟨some "null", some "sc.example.com:8080", none⟩
  have h_star : ¬Star ["sc.example.com:8080"] := by
    rintro ⟨entry, h_entry, h_trim⟩
    rw [List.mem_singleton.mp h_entry] at h_trim
    exact absurd h_trim (by decide +kernel)
  exact absurd (h_gated.null h_star rfl) (by decide +kernel)

end Cors

end ServerCentral.Http
