import ServerCentral.Compose.Values

/-!
# The networks of a service

A service joins the networks that its `networks` block names, and the implicit `default` one
if the block names none. The block may be missing, hold nothing, be a list of names or a map
from names to settings.

`attachToProxyNetwork` turns the block into a map and adds the network of the proxy to it;
`detachFromProxyNetwork` takes that network out again, and the block with it where it then says
only `default`. What a service is on and how, before and after, is its `membership`. The two
edits keep it exactly for the documents that are `Undoable` (`attach_undone_iff`).
-/

open Framework

namespace ServerCentral.Compose

/-! ### The source -/

/-- `PROXY_NETWORK` -/
def proxyNetwork : String := "sc-proxy"

/-- What stands under a name: nothing, or a map of settings. -/
abbrev Settings := Option (Table String Value)

/-- A `networks` block of a service. -/
inductive NetworksBlock where
  | absent
  | null
  | seq (names : List String)
  | map (entries : Table String Settings)

structure NetworkService where
  /-- Whether `network_mode` is written. -/
  networkMode : Bool
  networks : NetworksBlock

/-- The networks declared at the top, where that is a map, and the services. -/
structure NetworkDoc where
  networks : Option (Table String Settings)
  services : Table String NetworkService

/-- `serviceProxyAlias(doc, service) !== null` -/
def NetworksBlock.onProxy : NetworksBlock → Bool
  | .seq names => names.contains proxyNetwork
  | .map entries => entries.has proxyNetwork
  | _ => false

/-- The block as a map. -/
def NetworksBlock.toMap : NetworksBlock → Table String Settings
  | .map entries => entries
  | .seq names => names.foldl (fun networks name => networks.set name (some .empty)) .empty
  | _ => Table.empty.set "default" (some .empty)

namespace NetworkDoc

def attachToProxyNetwork (doc : NetworkDoc) (service networkAlias : String) :
    Except String NetworkDoc :=
  let svc := (doc.services.get? service).getD ⟨false, .absent⟩
  if svc.networkMode then
    .error s!"{service} uses network_mode and can't join a docker network — route to a published host port instead"
  else
    let top := doc.networks.getD .empty
    let top := match top.get? proxyNetwork with
      | some (some _) => top
      | _ => top.set proxyNetwork (some (Table.empty.set "external" (.bool true)))
    let aliases := Table.empty.set "aliases" (.list [.text networkAlias])
    let networks := svc.networks.toMap.set proxyNetwork (some aliases)
    .ok ⟨some top, doc.services.set service { svc with networks := .map networks }⟩

/-- A block without the network of the proxy. -/
def withoutProxy : NetworksBlock → NetworksBlock
  | .map entries =>
    let rest := entries.erase proxyNetwork
    if rest.keys = [] ∨ rest.keys = ["default"] then .absent else .map rest
  | .seq names => .seq (names.erase proxyNetwork)
  | block => block

/-- Undo of `attachToProxyNetwork`. There has to be a map of networks at the top if no service
is left on the network of the proxy. -/
def detachFromProxyNetwork (doc : NetworkDoc) (service : String) : Except String NetworkDoc :=
  let services := doc.services.modify service fun svc =>
    { svc with networks := withoutProxy svc.networks }
  if services.values.any fun svc => svc.networks.onProxy then .ok ⟨doc.networks, services⟩
  else match doc.networks with
    | none => .error s!"Expected YAML collection at networks. Remaining path: {proxyNetwork}"
    | some top =>
      let top := top.erase proxyNetwork
      .ok ⟨if top.entries.isEmpty then none else some top, services⟩

end NetworkDoc

/-! ### What a document means -/

/-- The settings of a network in a block, where the service is on it. -/
def NetworksBlock.settings : NetworksBlock → String → Option (Table String Value)
  | .seq names, name =>
    if name ∈ names ∨ names = [] ∧ name = "default" then some .empty else none
  | .map entries, name =>
    if entries.entries = [] then if name = "default" then some .empty else none
    else (entries.get? name).map (·.getD .empty)
  | _, name => if name = "default" then some .empty else none

/-- Being on a network: how it is declared at the top, and the settings in the block. -/
structure Membership where
  declared : Option (Table String Value)
  settings : Table String Value

namespace NetworkDoc

def declared (doc : NetworkDoc) (name : String) : Option (Table String Value) :=
  ((doc.networks.getD .empty).get? name).map (·.getD .empty)

/-- **What a service is on.** With a `network_mode` it is on no network. -/
def membership (doc : NetworkDoc) (service name : String) : Option Membership :=
  (doc.services.get? service).bind fun svc =>
    if svc.networkMode then none
    else (svc.networks.settings name).map fun settings => ⟨doc.declared name, settings⟩

/-- **What the two edits are to keep**: the other networks of the service, the other services,
and all of it when the service is detached again. -/
structure Undone (doc doc' : NetworkDoc) (service : String) : Prop where
  own : ∀ name ≠ proxyNetwork, doc'.membership service name = doc.membership service name
  others : ∀ other ≠ service, doc'.services.get? other = doc.services.get? other ∧
    ∀ name, doc'.membership other name = doc.membership other name
  detached : ∃ doc'', doc'.detachFromProxyNetwork service = .ok doc'' ∧
    ∀ other name, doc''.membership other name = doc.membership other name

/-- The block is no empty list or map and no map of settings for `default` alone, and a service
that is on the network of the proxy has it declared by a map. -/
structure Undoable (doc : NetworkDoc) (svc : NetworkService) : Prop where
  list : svc.networks ≠ .seq []
  named : ∀ entries, svc.networks = .map entries → entries.entries ≠ []
  plain : ∀ entries, svc.networks = .map entries → entries.keys = ["default"] →
    svc.networks.settings "default" = some .empty
  declared : ∀ other svc', doc.services.get? other = some svc' → svc'.networkMode = false →
    svc'.networks.onProxy = true → ∃ settings, (doc.networks.getD .empty).get? proxyNetwork =
      some (some settings)

end NetworkDoc

/-! ### Blocks -/

namespace NetworksBlock

theorem default_ne_proxy : "default" ≠ proxyNetwork := by decide

@[simp] theorem settings_absent (name : String) :
    absent.settings name = if name = "default" then some .empty else none := rfl

@[simp] theorem settings_null (name : String) :
    null.settings name = if name = "default" then some .empty else none := rfl

theorem toMap_absent : absent.toMap = Table.empty.set "default" (some .empty) := rfl

theorem toMap_null : null.toMap = Table.empty.set "default" (some .empty) := rfl

theorem settings_proxy (b : NetworksBlock) :
    (b.settings proxyNetwork).isSome = true ↔ b.onProxy = true := by
  cases b with
  | absent => simp [settings, onProxy, default_ne_proxy.symm]
  | null => simp [settings, onProxy, default_ne_proxy.symm]
  | seq names => simp [settings, onProxy, default_ne_proxy.symm]
  | map entries =>
    rw [settings, onProxy, Table.has]
    split
    case isTrue h_empty =>
      have h_none : entries.get? proxyNetwork = none := by
        rw [Table.get?_eq_none_iff, Table.keys, h_empty]
        simp
      simp [default_ne_proxy.symm, h_none]
    case isFalse => rw [Option.isSome_map]

theorem get?_foldl_set (names : List String) (networks : Table String Settings) (name : String) :
    (names.foldl (fun networks name => networks.set name (some .empty)) networks).get? name
      = if name ∈ names then some (some .empty) else networks.get? name := by
  induction names generalizing networks with
  | nil => simp
  | cons first names ih =>
    rw [List.foldl_cons, ih, Table.get?_set]
    by_cases h_first : name = first
    · simp [h_first]
    · simp [h_first]

/-- Nothing is named in an empty list or map. -/
def Blank : NetworksBlock → Prop
  | .seq names => names = []
  | .map entries => entries.entries = []
  | _ => False

/-- The map of a block has the settings of the block. -/
theorem settings_toMap {b : NetworksBlock} (h : ¬ b.Blank) (name : String) :
    (b.toMap.get? name).map (·.getD .empty) = b.settings name := by
  cases b with
  | absent => by_cases h_name : name = "default" <;> simp [toMap, settings, Table.get?_set, h_name]
  | null => by_cases h_name : name = "default" <;> simp [toMap, settings, Table.get?_set, h_name]
  | seq names =>
    have h_some : names ≠ [] := h
    rw [toMap, get?_foldl_set, settings]
    by_cases h_name : name ∈ names <;> simp [h_name, h_some]
  | map entries =>
    have h_some : entries.entries ≠ [] := h
    rw [toMap, settings, if_neg h_some]

theorem toMap_blank {b : NetworksBlock} (h : b.Blank) : b.toMap = .empty := by
  cases b with
  | absent => cases h
  | null => cases h
  | seq names =>
    obtain rfl : names = [] := h
    rfl
  | map entries => exact Table.ext h

theorem settings_blank {b : NetworksBlock} (h : b.Blank) (name : String) :
    b.settings name = if name = "default" then some .empty else none := by
  cases b with
  | absent => cases h
  | null => cases h
  | seq names =>
    obtain rfl : names = [] := h
    simp [settings]
  | map entries =>
    have h_empty : entries.entries = [] := h
    rw [settings, if_pos h_empty]

/-- The map of a block has a name unless the block is blank. -/
theorem toMap_entries {b : NetworksBlock} (h : ¬ b.Blank) : b.toMap.entries ≠ [] := by
  intro h_empty
  have h_none : ∀ name, b.toMap.get? name = none := by
    intro name
    rw [Table.get?_eq_none_iff, Table.keys, h_empty]
    simp
  have h_default := h_none "default"
  cases b with
  | absent => rw [toMap_absent, Table.get?_set_self] at h_default; cases h_default
  | null => rw [toMap_null, Table.get?_set_self] at h_default; cases h_default
  | seq names =>
    obtain ⟨name, rest, rfl⟩ := List.exists_cons_of_ne_nil (show names ≠ [] from h)
    have h_name := h_none name
    rw [toMap, get?_foldl_set] at h_name
    simp at h_name
  | map entries => exact h h_empty

/-- A block beside the network of the proxy. -/
theorem settings_with_proxy (b : NetworksBlock) (aliases : Settings) {name : String}
    (h : name ≠ proxyNetwork) :
    (NetworksBlock.map (b.toMap.set proxyNetwork aliases)).settings name
      = (b.toMap.get? name).map (·.getD .empty) := by
  have h_some : (b.toMap.set proxyNetwork aliases).entries ≠ [] := by
    intro h_empty
    have h_get := b.toMap.get?_set_self proxyNetwork aliases
    rw [Table.get?, h_empty] at h_get
    cases h_get
  rw [settings, if_neg h_some, Table.get?_set_of_ne _ _ h]

/-- Attaching adds to what the block says unless it is blank. -/
theorem settings_attached_iff (b : NetworksBlock) (aliases : Settings) :
    (∀ name ≠ proxyNetwork, (NetworksBlock.map (b.toMap.set proxyNetwork aliases)).settings name
      = b.settings name) ↔ ¬ b.Blank := by
  constructor
  · intro h h_blank
    have h_default := h "default" default_ne_proxy
    rw [settings_with_proxy b aliases default_ne_proxy, toMap_blank h_blank,
      settings_blank h_blank] at h_default
    cases h_default
  · intro h name h_name
    rw [settings_with_proxy b aliases h_name, settings_toMap h]

theorem toMap_fresh {b : NetworksBlock} (h : b.onProxy = false) :
    b.toMap.get? proxyNetwork = none := by
  cases b with
  | absent => rfl
  | null => rfl
  | seq names =>
    have h_names : proxyNetwork ∉ names := by simpa [onProxy] using h
    rw [toMap, get?_foldl_set, if_neg h_names]
    rfl
  | map entries =>
    show entries.get? proxyNetwork = none
    simpa [onProxy, Table.has] using h

/-- What is left of a block that was attached and is detached. -/
theorem withoutProxy_attached {b : NetworksBlock} (h : b.onProxy = false) (aliases : Settings) :
    NetworkDoc.withoutProxy (.map (b.toMap.set proxyNetwork aliases))
      = if b.toMap.keys = [] ∨ b.toMap.keys = ["default"] then .absent else .map b.toMap := by
  rw [NetworkDoc.withoutProxy, Table.erase_set, Table.erase_of_fresh (toMap_fresh h)]

/-- **The way back** loses the settings of a `default` that stands alone, and nothing else. -/
theorem settings_detached_iff {b : NetworksBlock} (h : b.onProxy = false) (aliases : Settings) :
    (∀ name, (NetworkDoc.withoutProxy (.map (b.toMap.set proxyNetwork aliases))).settings name
      = b.settings name) ↔
    ∀ entries, b = .map entries → entries.keys = ["default"] →
      b.settings "default" = some .empty := by
  rw [withoutProxy_attached h]
  by_cases h_blank : b.Blank
  · have h_keys : b.toMap.keys = [] := by rw [toMap_blank h_blank]; rfl
    rw [if_pos (.inl h_keys)]
    refine iff_of_true (fun name => (settings_blank h_blank name).symm) ?_
    rintro entries rfl h_default
    rw [toMap] at h_keys
    rw [h_keys] at h_default
    cases h_default
  have h_some : b.toMap.keys ≠ [] := fun h_keys =>
    toMap_entries h_blank (List.map_eq_nil_iff.mp h_keys)
  by_cases h_keys : b.toMap.keys = ["default"]
  · rw [if_pos (.inr h_keys)]
    constructor
    · rintro h_same entries rfl -
      exact (h_same "default").symm
    · intro h_plain name
      obtain rfl | h_name := eq_or_ne name "default"
      · cases b with
        | absent => rfl
        | null => rfl
        | seq names =>
          have h_named : "default" ∈ names := by
            by_contra h_out
            have h_get := get?_foldl_set names .empty "default"
            rw [if_neg h_out, Table.get?_empty, Table.get?_eq_none_iff] at h_get
            exact h_get (h_keys ▸ List.mem_singleton_self _)
          rw [settings_absent, if_pos rfl, settings, if_pos (.inl h_named)]
        | map entries => exact (h_plain entries rfl h_keys).symm
      · have h_none : b.toMap.get? name = none := by
          rw [Table.get?_eq_none_iff, h_keys]
          simpa using h_name
        rw [← settings_toMap h_blank, h_none, settings_absent, if_neg h_name]
        rfl
  · rw [if_neg (not_or.mpr ⟨h_some, h_keys⟩)]
    refine iff_of_true (fun name => ?_) ?_
    · rw [settings, if_neg (toMap_entries h_blank), settings_toMap h_blank]
    · rintro entries rfl h_default
      exact absurd h_default h_keys

end NetworksBlock

/-! ### The two edits -/

namespace NetworkDoc

variable {doc doc' : NetworkDoc} {service networkAlias : String} {svc : NetworkService}

/-- **What attaching does.** -/
theorem attach_spec (h_svc : doc.services.get? service = some svc)
    (h : doc.attachToProxyNetwork service networkAlias = .ok doc') :
    svc.networkMode = false ∧ ∃ top aliases settings,
      doc' = ⟨some top, doc.services.set service ⟨false,
        .map (svc.networks.toMap.set proxyNetwork aliases)⟩⟩ ∧
      (∀ name ≠ proxyNetwork, top.get? name = (doc.networks.getD .empty).get? name) ∧
      top.get? proxyNetwork = some (some settings) ∧
      ((∃ own, (doc.networks.getD .empty).get? proxyNetwork = some (some own)) →
        top = doc.networks.getD .empty) ∧
      ((∀ own, (doc.networks.getD .empty).get? proxyNetwork ≠ some (some own)) →
        settings ≠ .empty) := by
  rw [attachToProxyNetwork, h_svc] at h
  dsimp only [Option.getD_some] at h
  split at h
  case isTrue => cases h
  case isFalse h_mode =>
    obtain rfl := Except.ok.inj h
    have h_false := Bool.eq_false_iff.mpr h_mode
    refine ⟨h_false, ?_⟩
    split
    · next own h_own =>
      refine ⟨_, _, own, by rw [h_false], fun _ _ => rfl, h_own, fun _ => rfl, fun h_none => ?_⟩
      exact absurd h_own (h_none own)
    · next h_none =>
      refine ⟨_, _, Table.empty.set "external" (.bool true), by rw [h_false], fun name h_name => ?_,
        Table.get?_set_self _ _ _, fun ⟨own, h_own⟩ => absurd h_own (h_none own), fun _ => ?_⟩
      · exact Table.get?_set_of_ne _ _ h_name
      · intro h_empty
        have h_get := congrArg (Table.get? · "external") h_empty
        rw [Table.get?_set_self] at h_get
        cases h_get

/-- Where a service is the same, only the declarations of its networks matter. -/
theorem membership_congr {doc doc' : NetworkDoc} {service name : String}
    (h_svc : doc'.services.get? service = doc.services.get? service)
    (h : ∀ svc, doc.services.get? service = some svc → svc.networkMode = false →
      (svc.networks.settings name).isSome = true → doc'.declared name = doc.declared name) :
    doc'.membership service name = doc.membership service name := by
  rw [membership, membership, h_svc]
  cases h_get : doc.services.get? service with
  | none => rfl
  | some svc =>
    rw [Option.bind_some, Option.bind_some]
    cases h_mode : svc.networkMode with
    | true => rfl
    | false =>
      cases h_settings : svc.networks.settings name with
      | none => rfl
      | some settings =>
        rw [h svc h_get h_mode (by rw [h_settings]; rfl)]

theorem membership_of_get (h : doc.services.get? service = some svc) (h_mode : svc.networkMode = false)
    (name : String) : doc.membership service name
      = (svc.networks.settings name).map fun settings => ⟨doc.declared name, settings⟩ := by
  rw [membership, h, Option.bind_some, h_mode]
  rfl

/-- The settings can be read off a membership. -/
theorem settings_of_membership {b b' : NetworksBlock} {d d' : Option (Table String Value)}
    {name : String} (h : ((b.settings name).map fun settings => (⟨d, settings⟩ : Membership))
      = (b'.settings name).map fun settings => ⟨d', settings⟩) :
    b.settings name = b'.settings name := by
  have h_settings := congrArg (Option.map Membership.settings) h
  simpa [Option.map_map, Function.comp_def] using h_settings

/-- **Detaching** a service with a map of networks. -/
theorem detach_spec {top : Table String Settings} {svc' : NetworkService}
    (h_top : doc'.networks = some top) (h_svc : doc'.services.get? service = some svc') :
    ∃ doc'', doc'.detachFromProxyNetwork service = .ok doc'' ∧
      doc''.services.get? service = some { svc' with networks := withoutProxy svc'.networks } ∧
      (∀ other ≠ service, doc''.services.get? other = doc'.services.get? other) ∧
      (∀ name ≠ proxyNetwork, doc''.declared name = doc'.declared name) ∧
      ((∃ other found, doc''.services.get? other = some found ∧ found.networks.onProxy = true) →
        doc''.declared proxyNetwork = doc'.declared proxyNetwork) := by
  let services := doc'.services.modify service fun svc =>
    { svc with networks := withoutProxy svc.networks }
  have h_self : services.get? service = some { svc' with networks := withoutProxy svc'.networks } := by
    rw [Table.get?_modify, h_svc, Option.map_some, if_pos rfl]
  have h_others : ∀ other ≠ service, services.get? other = doc'.services.get? other := by
    intro other h_other
    rw [Table.get?_modify]
    cases doc'.services.get? other <;> simp [h_other]
  rw [detachFromProxyNetwork]
  by_cases h_used : services.values.any fun svc => svc.networks.onProxy
  · rw [if_pos h_used]
    exact ⟨_, rfl, h_self, h_others, fun _ _ => rfl, fun _ => rfl⟩
  · rw [if_neg h_used, h_top]
    refine ⟨_, rfl, h_self, h_others, fun name h_name => ?_, fun ⟨other, found, h_get, h_proxy⟩ => ?_⟩
    · have h_erased : ∀ top' : Table String Settings,
          (if top'.entries.isEmpty then none else some top').getD .empty = top' := by
        intro top'
        split
        · next h_empty => exact (Table.ext (List.isEmpty_iff.mp h_empty)).symm
        · rfl
      rw [declared, declared, h_erased, h_top, Table.get?_erase_of_ne _ h_name]
      rfl
    · refine absurd (List.any_eq_true.mpr ⟨found, ?_, h_proxy⟩) h_used
      exact Table.get?_of_mem_values.mpr ⟨other, h_get⟩

/-- **Main result.** What a document says about the networks of its services outlasts the two
edits exactly if it is undoable. -/
theorem attach_undone_iff (h_svc : doc.services.get? service = some svc)
    (h_off : svc.networks.onProxy = false)
    (h : doc.attachToProxyNetwork service networkAlias = .ok doc') :
    Undone doc doc' service ↔ Undoable doc svc := by
  obtain ⟨h_mode, top, aliases, settings, rfl, h_top, h_proxy, h_kept, h_new⟩ :=
    attach_spec h_svc h
  let attached : NetworkDoc := ⟨some top, doc.services.set service ⟨false,
    .map (svc.networks.toMap.set proxyNetwork aliases)⟩⟩
  have h_self : attached.services.get? service = some ⟨false,
      .map (svc.networks.toMap.set proxyNetwork aliases)⟩ := Table.get?_set_self _ _ _
  have h_get : ∀ other ≠ service, attached.services.get? other = doc.services.get? other :=
    fun other h_other => Table.get?_set_of_ne _ _ h_other
  have h_declared : ∀ name ≠ proxyNetwork, attached.declared name = doc.declared name := by
    intro name h_name
    rw [declared, declared, ← h_top name h_name]
    rfl
  have h_own := membership_of_get h_svc h_mode
  obtain ⟨doc'', h_detach, h_self'', h_get'', h_declared'', h_proxy''⟩ :=
    detach_spec (show attached.networks = some top from rfl) h_self
  have h_not : (svc.networks.settings proxyNetwork).isSome ≠ true := by
    rw [Ne, NetworksBlock.settings_proxy, h_off]
    exact Bool.false_ne_true
  constructor
  · intro h_undone
    -- what the service is on beside the proxy says that its block names something
    have h_blank : ¬ svc.networks.Blank := by
      rw [← NetworksBlock.settings_attached_iff svc.networks aliases]
      intro name h_name
      have h_same := h_undone.own name h_name
      rw [membership_of_get h_self rfl, h_own] at h_same
      exact settings_of_membership h_same
    have h_plain := by
      refine (NetworksBlock.settings_detached_iff h_off aliases).mp fun name => ?_
      obtain ⟨doc₂, h_doc, h_same⟩ := h_undone.detached
      obtain rfl := Except.ok.inj (h_detach.symm.trans h_doc)
      have h_service := h_same service name
      rw [membership_of_get h_self'' rfl, h_own] at h_service
      exact settings_of_membership h_service
    refine ⟨?_, ?_, h_plain, ?_⟩
    · exact fun h_list => h_blank (by rw [h_list]; rfl)
    · exact fun entries h_map h_empty => h_blank (by rw [h_map]; exact h_empty)
    · intro other svc' h_other h_mode' h_on
      by_contra h_undeclared
      have h_ne : other ≠ service := by
        rintro rfl
        obtain rfl := Option.some.inj (h_svc.symm.trans h_other)
        exact Bool.false_ne_true (h_off.symm.trans h_on)
      have h_same := (h_undone.others other h_ne).2 proxyNetwork
      have h_on' := (NetworksBlock.settings_proxy svc'.networks).mpr h_on
      obtain ⟨found, h_found⟩ := Option.isSome_iff_exists.mp h_on'
      rw [membership_of_get ((h_get other h_ne).trans h_other) h_mode',
        membership_of_get h_other h_mode', h_found] at h_same
      have h_decl : attached.declared proxyNetwork = doc.declared proxyNetwork :=
        (Membership.mk.inj (Option.some.inj h_same)).1
      have h_fresh := h_new fun own h_own => h_undeclared ⟨own, h_own⟩
      rw [declared, declared, show attached.networks.getD .empty = top from rfl, h_proxy] at h_decl
      cases h_before : (doc.networks.getD .empty).get? proxyNetwork with
      | none =>
        rw [h_before] at h_decl
        cases h_decl
      | some own =>
        cases own with
        | none =>
          rw [h_before] at h_decl
          exact h_fresh (Option.some.inj h_decl)
        | some own => exact h_undeclared ⟨own, h_before⟩
  · intro h_undoable
    have h_blank : ¬ svc.networks.Blank := by
      intro h_blank
      cases h_block : svc.networks with
      | absent => rw [h_block] at h_blank; cases h_blank
      | null => rw [h_block] at h_blank; cases h_blank
      | seq names =>
        rw [h_block] at h_blank
        exact h_undoable.list (h_block.trans (congrArg NetworksBlock.seq h_blank))
      | map entries =>
        rw [h_block] at h_blank
        exact h_undoable.named entries h_block h_blank
    -- a service that is on the network of the proxy finds it declared as before
    have h_kept_proxy : ∀ other svc', doc.services.get? other = some svc' →
        svc'.networkMode = false → svc'.networks.onProxy = true →
          attached.declared proxyNetwork = doc.declared proxyNetwork := by
      intro other svc' h_other h_mode' h_on
      rw [declared, declared, ← h_kept (h_undoable.declared other svc' h_other h_mode' h_on)]
      rfl
    refine ⟨fun name h_name => ?_, fun other h_other => ⟨h_get other h_other, fun name => ?_⟩,
      doc'', h_detach, fun other name => ?_⟩
    · rw [membership_of_get h_self rfl, h_own]
      rw [(NetworksBlock.settings_attached_iff svc.networks aliases).mpr h_blank name h_name,
        h_declared name h_name]
    · refine membership_congr (h_get other h_other) fun svc' h_svc' h_mode' h_some => ?_
      obtain rfl | h_name := eq_or_ne name proxyNetwork
      · exact h_kept_proxy other svc' h_svc' h_mode' ((NetworksBlock.settings_proxy _).mp h_some)
      · exact h_declared name h_name
    · obtain rfl | h_other := eq_or_ne other service
      · rw [membership_of_get h_self'' rfl, h_own,
          (NetworksBlock.settings_detached_iff h_off aliases).mpr h_undoable.plain name]
        obtain rfl | h_name := eq_or_ne name proxyNetwork
        · rw [Option.not_isSome_iff_eq_none.mp h_not]
          rfl
        · rw [h_declared'' name h_name, h_declared name h_name]
      · have h_same := (h_get'' other h_other).trans (h_get other h_other)
        refine membership_congr h_same fun svc' h_svc' h_mode' h_some => ?_
        obtain rfl | h_name := eq_or_ne name proxyNetwork
        · have h_on := (NetworksBlock.settings_proxy _).mp h_some
          exact (h_proxy'' ⟨other, svc', h_same.trans h_svc', h_on⟩).trans
            (h_kept_proxy other svc' h_svc' h_mode' h_on)
        · exact (h_declared'' name h_name).trans (h_declared name h_name)

/-- A service named `web` with these networks. -/
def oneService (networks : NetworksBlock) : NetworkDoc :=
  ⟨none, Table.empty.set "web" ⟨false, networks⟩⟩

/-- A service that is on a network of its own choice. -/
theorem attach_undone_backend : ∃ doc',
    (oneService (.seq ["backend"])).attachToProxyNetwork "web" "blog-web" = .ok doc' ∧
    (Undone (oneService (.seq ["backend"])) doc' "web" ↔
      Undoable (oneService (.seq ["backend"])) ⟨false, .seq ["backend"]⟩) :=
  ⟨_, rfl, attach_undone_iff (Table.get?_set_self _ _ _) rfl rfl⟩

/-- **An empty list**: the service loses the network it shares with its siblings. -/
theorem empty_list_leaves_default : ∃ doc',
    (oneService (.seq [])).attachToProxyNetwork "web" "blog-web" = .ok doc' ∧
    ((oneService (.seq [])).membership "web" "default").isSome = true ∧
    doc'.membership "web" "default" = none ∧ ¬ Undone (oneService (.seq [])) doc' "web" := by
  have h_before : ((oneService (.seq [])).membership "web" "default").isSome = true := rfl
  refine ⟨_, rfl, h_before, rfl, fun h_undone => ?_⟩
  have h_same := h_undone.own "default" NetworksBlock.default_ne_proxy
  rw [← h_same] at h_before
  exact absurd h_before (by decide)

end NetworkDoc

end ServerCentral.Compose
