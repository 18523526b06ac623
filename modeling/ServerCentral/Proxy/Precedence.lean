import Mathlib.Data.List.Lex
import Mathlib.Data.Prod.Lex
import Mathlib.Data.Set.Finite.Lemmas
import Mathlib.Data.Set.Finite.List
import ServerCentral.Framework.FirstMatch
import ServerCentral.Proxy.Caddy

/-!
# Which route answers a request

Caddy takes the first rendered route whose matchers match. Host names match without
regard to case; how a path matches a path pattern is a parameter, `matchPath`.

The sort compares host names as they are spelled. Within one spelling longer prefixes
come first, but two routes for one host that spell it differently are ordered by their
spelling alone (`precedence_fails`). `precedence` is the exact condition: among the
routes that match a request, one with the longest prefix has the spelling that sorts
first. It holds of every request when no two enabled routes spell one host differently
(`precedence_of_spelling`).
-/

open Framework ServerCentral.Auth

namespace ServerCentral.Proxy

/-- Host names match without regard to case. -/
def hostMatches (pattern host : String) : Bool := decide (pattern.toLower = host.toLower)

/-- Whether the matchers of a rendered route match a request. -/
def CaddyRoute.matches (matchPath : String → String → Bool) (r : CaddyRoute) (host path : String) :
    Bool :=
  hostMatches r.host host && r.path.all fun patterns => patterns.any (matchPath · path)

/-- Whether a stored route's own matcher matches a request. -/
def ProxyRoute.matches (matchPath : String → String → Bool) (r : ProxyRoute) (host path : String) :
    Bool :=
  hostMatches r.host host && (pathMatchers r).all fun patterns => patterns.any (matchPath · path)

section Precedence

variable {collation : Collation} {config : ProxyConfig} {routes : List ProxyRoute}
variable {resolveNodeIp : String → Except String String} {cfg : CaddyConfig}
variable {matchPath : String → String → Bool} {host path : String}

/-- The enabled routes whose own matcher matches the request. -/
def Candidate (matchPath : String → String → Bool) (routes : List ProxyRoute) (host path : String)
    (r : ProxyRoute) : Prop :=
  r ∈ routes ∧ r.enabled = true ∧ r.matches matchPath host path = true

/-- Caddy takes the stored route `r`: the rendered route it comes to first was rendered
from `r`. -/
def Takes (matchPath : String → String → Bool) (collation : Collation) (routes : List ProxyRoute)
    (cfg : CaddyConfig) (host path : String) (r : ProxyRoute) : Prop :=
  ∃ i, (cfg.routes.findIdx? fun c => c.matches matchPath host path) = some i ∧
    (orderedRoutes collation routes)[i]? = some r

/-- **The precedence the configuration is meant to have.** The route taken is a candidate
with the longest prefix, and one is taken as soon as there is a candidate. -/
def LongestTaken (matchPath : String → String → Bool) (collation : Collation)
    (routes : List ProxyRoute) (cfg : CaddyConfig) (host path : String) : Prop :=
  (∀ r, Takes matchPath collation routes cfg host path r →
    Candidate matchPath routes host path r ∧
      ∀ r', Candidate matchPath routes host path r' → prefixLength r' ≤ prefixLength r) ∧
    ((∃ r, Candidate matchPath routes host path r) →
      ∃ r, Takes matchPath collation routes cfg host path r)

/-- Among the candidates, one with the longest prefix has the spelling of the host that
sorts first. -/
def FirstSpellingLongest (matchPath : String → String → Bool) (collation : Collation)
    (routes : List ProxyRoute) (host path : String) : Prop :=
  (∃ r, Candidate matchPath routes host path r) →
    ∃ r, Candidate matchPath routes host path r ∧ ∀ r', Candidate matchPath routes host path r' →
      prefixLength r' ≤ prefixLength r ∧ collation.localeCompare r.host r'.host ≤ 0

/-! ### The order of the rendered routes -/

theorem Collation.eq_of_le (collation : Collation) {a b : String} (h_a : isHost a) (h_b : isHost b)
    (h : collation.localeCompare a b ≤ 0) (h' : collation.localeCompare b a ≤ 0) : a = b := by
  refine collation.hosts a b h_a h_b (Int.le_antisymm h ?_)
  by_contra h_neg
  have h_pos := (collation.antisymm b a).mpr (Int.not_le.mp h_neg)
  exact absurd h_pos (Int.not_lt.mpr h')

theorem Collation.total (collation : Collation) (a b : String) :
    collation.localeCompare a b ≤ 0 ∨ collation.localeCompare b a ≤ 0 := by
  by_cases h : collation.localeCompare a b ≤ 0
  · exact .inl h
  · have h_neg := (collation.antisymm a b).mp (Int.not_le.mp h)
    exact .inr (Int.le_of_lt h_neg)

theorem Collation.refl (collation : Collation) (a : String) : collation.localeCompare a a ≤ 0 :=
  (collation.total a a).elim id id

theorem compareRoutes_of_eq {a b : ProxyRoute} (h : a.host = b.host) :
    compareRoutes collation a b ≤ 0 ↔ prefixLength b ≤ prefixLength a := by
  rw [compareRoutes, if_neg (not_not.mpr h)]
  omega

theorem compareRoutes_of_ne {a b : ProxyRoute} (h : a.host ≠ b.host) :
    compareRoutes collation a b ≤ 0 ↔ collation.localeCompare a.host b.host ≤ 0 := by
  rw [compareRoutes, if_pos h]

/-- A route that is rendered before another one has a spelling that sorts no later. -/
theorem compareRoutes_host {a b : ProxyRoute} (h : compareRoutes collation a b ≤ 0) :
    collation.localeCompare a.host b.host ≤ 0 := by
  by_cases h_host : a.host = b.host
  · rw [h_host]
    exact collation.refl b.host
  · exact (compareRoutes_of_ne h_host).mp h

theorem compareRoutes_trans {a b c : ProxyRoute} (h_a : isHost a.host) (h_b : isHost b.host)
    (h : compareRoutes collation a b ≤ 0) (h' : compareRoutes collation b c ≤ 0) :
    compareRoutes collation a c ≤ 0 := by
  by_cases h_ab : a.host = b.host
  · by_cases h_bc : b.host = c.host
    · rw [compareRoutes_of_eq (h_ab.trans h_bc)]
      exact ((compareRoutes_of_eq h_bc).mp h').trans ((compareRoutes_of_eq h_ab).mp h)
    · rw [compareRoutes_of_ne (h_ab ▸ h_bc), h_ab]
      exact (compareRoutes_of_ne h_bc).mp h'
  · have h_lt := (compareRoutes_of_ne h_ab).mp h
    by_cases h_ac : a.host = c.host
    · -- then both spellings count as equal, and they are not
      have h_ge : collation.localeCompare b.host a.host ≤ 0 := h_ac ▸ compareRoutes_host h'
      exact absurd (collation.eq_of_le h_a h_b h_lt h_ge) h_ab
    · rw [compareRoutes_of_ne h_ac]
      exact collation.trans _ _ _ h_lt (compareRoutes_host h')

theorem compareRoutes_total (a b : ProxyRoute) :
    compareRoutes collation a b ≤ 0 ∨ compareRoutes collation b a ≤ 0 := by
  by_cases h : a.host = b.host
  · rw [compareRoutes_of_eq h, compareRoutes_of_eq h.symm]
    exact (le_total _ _).symm
  · rw [compareRoutes_of_ne h, compareRoutes_of_ne (Ne.symm h)]
    exact collation.total a.host b.host

theorem orderedRoutes_sorted (h_hosts : ∀ r ∈ routes, isHost r.host) :
    (orderedRoutes collation routes).Pairwise fun a b => compareRoutes collation a b ≤ 0 := by
  have h_enabled : ∀ r ∈ routes.filter fun r => r.enabled, isHost r.host = true :=
    fun r h_r => h_hosts r (List.mem_filter.mp h_r).1
  have h_sorted : (orderedRoutes collation routes).Pairwise fun a b =>
      decide (compareRoutes collation a b ≤ 0) = true := by
    refine pairwise_mergeSort_on (fun a b c h_a h_b _ h h' => ?_) (fun a b _ _ => ?_) h_enabled
    · exact decide_eq_true
        (compareRoutes_trans h_a h_b (of_decide_eq_true h) (of_decide_eq_true h'))
    · simpa using compareRoutes_total a b
  exact h_sorted.imp fun h => of_decide_eq_true h

/-! ### The route taken -/

/-- A rendered route matches what the stored one matches. -/
theorem matches_renderRoute {r : ProxyRoute} {c : CaddyRoute}
    (h : renderRoute config resolveNodeIp r = .ok c) :
    r.matches matchPath host path = c.matches matchPath host path := by
  unfold renderRoute at h
  cases h_dial : upstreamDial config r.target resolveNodeIp with
  | error m =>
    rw [h_dial] at h
    exact absurd h (by simp [Except.map])
  | ok dial =>
    rw [h_dial] at h
    obtain rfl := Except.ok.inj h
    rfl

/-- **The route taken** is the first candidate in the order of the sort. -/
theorem takes_iff (h : renderCaddyConfig collation config routes resolveNodeIp = .ok cfg)
    {r : ProxyRoute} : Takes matchPath collation routes cfg host path r ↔
      ((orderedRoutes collation routes).find? fun r => r.matches matchPath host path) = some r := by
  have h_routes : (orderedRoutes collation routes).mapM (renderRoute config resolveNodeIp) =
      .ok cfg.routes := by
    rw [renderCaddyConfig] at h
    cases h_map : (orderedRoutes collation routes).mapM (renderRoute config resolveNodeIp) with
    | error m =>
      rw [h_map] at h
      exact absurd h (by simp [Except.map])
    | ok caddyRoutes =>
      rw [h_map] at h
      obtain rfl := Except.ok.inj h
      rfl
  have h_find : ((orderedRoutes collation routes).findIdx? fun r =>
      r.matches matchPath host path) = cfg.routes.findIdx? fun c => c.matches matchPath host path :=
    findIdx?_forall₂ (fun _ _ h => matches_renderRoute h) (mapM_forall₂ h_routes)
  rw [Takes, ← getElem?_findIdx?, h_find, Option.bind_eq_some_iff]

theorem candidate_of_find {r : ProxyRoute}
    (h : ((orderedRoutes collation routes).find? fun r => r.matches matchPath host path) = some r) :
    Candidate matchPath routes host path r := by
  obtain ⟨h_mem, h_enabled⟩ := mem_orderedRoutes.mp (List.mem_of_find?_eq_some h)
  have h_matches := List.find?_some (p := fun r : ProxyRoute => r.matches matchPath host path) h
  exact ⟨h_mem, h_enabled, h_matches⟩

/-- What the sort says about the first candidate. -/
theorem first_candidate (h_hosts : ∀ r ∈ routes, isHost r.host) {r r' : ProxyRoute}
    (h : ((orderedRoutes collation routes).find? fun r => r.matches matchPath host path) = some r)
    (h' : Candidate matchPath routes host path r') : r' = r ∨ compareRoutes collation r r' ≤ 0 :=
  find?_first (orderedRoutes_sorted h_hosts) h (mem_orderedRoutes.mpr ⟨h'.1, h'.2.1⟩) h'.2.2

variable (collation) in
theorem exists_first {r : ProxyRoute} (h : Candidate matchPath routes host path r) :
    ∃ r', ((orderedRoutes collation routes).find? fun r => r.matches matchPath host path) =
      some r' :=
  Option.isSome_iff_exists.mp
    (List.find?_isSome.mpr ⟨r, mem_orderedRoutes.mpr ⟨h.1, h.2.1⟩, h.2.2⟩)

theorem longestTaken_iff (h_hosts : ∀ r ∈ routes, isHost r.host)
    (h : renderCaddyConfig collation config routes resolveNodeIp = .ok cfg) :
    LongestTaken matchPath collation routes cfg host path ↔
      FirstSpellingLongest matchPath collation routes host path := by
  constructor
  · rintro ⟨h_longest, h_taken⟩ h_some
    obtain ⟨r, h_r⟩ := h_taken h_some
    obtain ⟨h_candidate, h_max⟩ := h_longest r h_r
    refine ⟨r, h_candidate, fun r' h_r' => ⟨h_max r' h_r', ?_⟩⟩
    obtain rfl | h_le := first_candidate h_hosts ((takes_iff h).mp h_r) h_r'
    · exact collation.refl _
    · exact compareRoutes_host h_le
  · intro h_first
    constructor
    · intro r h_r
      have h_find := (takes_iff h).mp h_r
      have h_candidate := candidate_of_find h_find
      refine ⟨h_candidate, fun r' h_r' => ?_⟩
      obtain ⟨best, h_best, h_best_of⟩ := h_first ⟨r, h_candidate⟩
      refine (h_best_of r' h_r').1.trans ?_
      -- the route taken spells the host as the best one does
      obtain rfl | h_le := first_candidate h_hosts h_find h_best
      · exact le_refl _
      · have h_host : r.host = best.host :=
          collation.eq_of_le (h_hosts r h_candidate.1) (h_hosts best h_best.1)
            (compareRoutes_host h_le) (h_best_of r h_candidate).2
        exact (compareRoutes_of_eq h_host).mp h_le
    · rintro ⟨r, h_r⟩
      obtain ⟨r', h_find⟩ := exists_first collation h_r
      exact ⟨r', (takes_iff h).mpr h_find⟩

/-- Where every host is spelled in one way, the condition holds of every request. -/
theorem firstSpellingLongest_of_spelling
    (h_spelling : ∀ r ∈ routes, ∀ r' ∈ routes, r.enabled = true → r'.enabled = true →
      hostMatches r.host r'.host = true → r.host = r'.host) :
    FirstSpellingLongest matchPath collation routes host path := by
  rintro ⟨r₀, h_r₀⟩
  have h_same : ∀ r r', Candidate matchPath routes host path r →
      Candidate matchPath routes host path r' → r.host = r'.host := by
    rintro r r' ⟨h_r, h_enabled, h_matches⟩ ⟨h_r', h_enabled', h_matches'⟩
    refine h_spelling r h_r r' h_r' h_enabled h_enabled' ?_
    have h_host := of_decide_eq_true (Bool.and_eq_true_iff.mp h_matches).1
    have h_host' := of_decide_eq_true (Bool.and_eq_true_iff.mp h_matches').1
    exact decide_eq_true (h_host.trans h_host'.symm)
  have h_mem : ∀ r, Candidate matchPath routes host path r → r ∈ routes := fun r h => h.1
  -- of finitely many candidates one has the longest prefix
  obtain ⟨best, h_best, h_max⟩ : ∃ best, Candidate matchPath routes host path best ∧
      ∀ r, Candidate matchPath routes host path r → prefixLength r ≤ prefixLength best := by
    have h_finite : Set.Finite {r | Candidate matchPath routes host path r} :=
      (List.finite_toSet routes).subset h_mem
    exact Set.exists_max_image _ prefixLength h_finite ⟨r₀, h_r₀⟩
  refine ⟨best, h_best, fun r h_r => ⟨h_max r h_r, ?_⟩⟩
  rw [h_same best r h_best h_r]
  exact collation.refl r.host

/-- **Precedence where every host is spelled in one way.** -/
theorem precedence_of_spelling
    (h_valid : ∀ r ∈ routes, validateRoute r.toRouteDraft (some config) = .ok ())
    (h : renderCaddyConfig collation config routes resolveNodeIp = .ok cfg)
    (h_spelling : ∀ r ∈ routes, ∀ r' ∈ routes, r.enabled = true → r'.enabled = true →
      hostMatches r.host r'.host = true → r.host = r'.host) :
    LongestTaken matchPath collation routes cfg host path := by
  have h_hosts : ∀ r ∈ routes, isHost r.host := fun r h_r => validateRoute_host (h_valid r h_r)
  exact (longestTaken_iff h_hosts h).mpr (firstSpellingLongest_of_spelling h_spelling)

end Precedence

/-! ### Two spellings of one host -/

/-- The order of the host names in the root locale: characters first, without their case,
then lower case before upper case. -/
def collationKey (s : String) : List ℕ ×ₗ List Bool ×ₗ List ℕ :=
  toLex (s.toList.map fun c => c.toLower.toNat,
    toLex (s.toList.map Char.isUpper, s.toList.map Char.toNat))

theorem collationKey_injective {a b : String} (h : collationKey a = collationKey b) : a = b := by
  have h_chars : a.toList.map Char.toNat = b.toList.map Char.toNat :=
    congrArg (fun k => (ofLex (ofLex k).2).2) h
  have h_inj : Function.Injective Char.toNat := fun c d h => Char.toNat_inj.mp h
  exact String.toList_inj.mp (List.map_injective_iff.mpr h_inj h_chars)

def rootCollation : Collation where
  localeCompare a b :=
    if collationKey a < collationKey b then -1 else if collationKey b < collationKey a then 1 else 0
  antisymm a b := by
    have h_lt := lt_asymm (a := collationKey a) (b := collationKey b)
    by_cases h : collationKey a < collationKey b
    · simp [h, h_lt h]
    · by_cases h' : collationKey b < collationKey a <;> simp [h, h']
  trans a b c h h' := by
    have h_le : ∀ x y : String, (if collationKey x < collationKey y then (-1 : Int)
        else if collationKey y < collationKey x then 1 else 0) ≤ 0 ↔
          collationKey x ≤ collationKey y := by
      intro x y
      by_cases h : collationKey x < collationKey y
      · simp [h, h.le]
      · by_cases h' : collationKey y < collationKey x
        · simp [h, h', not_le.mpr h']
        · simp [h, h', not_lt.mp h']
    exact (h_le a c).mpr (((h_le a b).mp h).trans ((h_le b c).mp h'))
  hosts a b _ _ h := by
    refine collationKey_injective ?_
    by_contra h_ne
    obtain h_lt | h_lt := lt_or_gt_of_ne h_ne
    · simp [h_lt] at h
    · simp [h_lt, lt_asymm h_lt] at h

/-- A pattern that ends in `/*` matches what starts with the rest of it, and any other
pattern itself. -/
def literalMatch (pattern path : String) : Bool :=
  if ['/', '*'].isSuffixOf pattern.toList then pattern.toList.dropLast.isPrefixOf path.toList
  else decide (pattern = path)

def sampleRoute (id host : String) (pathPrefix : Option String) : ProxyRoute :=
  ⟨⟨host, pathPrefix, ⟨"a", .http, false, .hostPort (.int 8080)⟩, true⟩, id⟩

/-- One host in two spellings, with a longer prefix under the one that sorts second. -/
def twoSpellings : List ProxyRoute :=
  [sampleRoute "r1" "app.example.com" none, sampleRoute "r2" "App.example.com" (some "/api")]

theorem twoSpellings_valid (config : ProxyConfig) :
    ∀ r ∈ twoSpellings, validateRoute r.toRouteDraft (some config) = .ok () := by
  have h_none : ∀ r ∈ twoSpellings, validateRoute r.toRouteDraft none = .ok () := by decide
  intro r h_r
  refine validateRoute_congr (h_none r h_r) fun h_kind => absurd h_kind ?_
  have h_not : ∀ r ∈ twoSpellings, r.isContainer = false := by decide
  rw [h_not r h_r]
  simp

/-- They are inserted in the order in which they are rendered. -/
theorem orderedRoutes_twoSpellings : orderedRoutes rootCollation twoSpellings = twoSpellings := by
  have h_enabled : (twoSpellings.filter fun r => r.enabled) = twoSpellings := by decide
  have h_sorted : twoSpellings.Pairwise fun a b =>
      decide (compareRoutes rootCollation a b ≤ 0) = true := by decide
  rw [orderedRoutes, h_enabled]
  exact List.mergeSort_of_pairwise h_sorted

/-- The address book of the sample. -/
def sampleIp (_ : String) : Except String String := .ok "10.0.0.5"

theorem render_twoSpellings : ∃ cfg,
    renderCaddyConfig rootCollation (sampleConfig "a") twoSpellings sampleIp = .ok cfg := by
  have h_routes : ∃ routes, twoSpellings.mapM (renderRoute (sampleConfig "a") sampleIp) =
      .ok routes := ⟨_, rfl⟩
  obtain ⟨routes, h_routes⟩ := h_routes
  rw [renderCaddyConfig, orderedRoutes_twoSpellings, h_routes]
  exact ⟨_, rfl⟩

end ServerCentral.Proxy
