import ServerCentral.Framework.Table

/-!
# Compose documents

What decides which docker networks the services of a compose document join: the networks
declared at its top, and the `networks` and `network_mode` of every service.
`attachToProxyNetwork` puts a service on the network of the proxy under an alias,
`serviceProxyAlias` reads the alias back, and `proxyNames` are the names under which the
network then knows the service.
-/

open Framework

namespace ServerCentral.Proxy

/-- `PROXY_NETWORK` -/
def proxyNetwork : String := "sc-proxy"

/-- An entry of the `networks` map of a service: the aliases, if it lists any. -/
structure NetworkEntry where
  aliases : Option (List String)

/-- The `networks` of a service: in the list form, in the map form, or in neither. -/
inductive ServiceNetworks where
  | unset
  | seq (names : List String)
  | map (entries : Table String NetworkEntry)

structure ComposeService where
  networkMode : Option String
  networks : ServiceNetworks

/-- What stands under a name at the top: a map of settings, or something else. -/
inductive NetworkDecl where
  | settings (isExternal : Bool)
  | blank

structure ComposeDoc where
  networks : Table String NetworkDecl
  services : Table String ComposeService

namespace ComposeDoc

variable (doc : ComposeDoc)

def listServiceNames : List String := doc.services.keys

/-- The `networks` of a service. -/
def networksOf (service : String) : ServiceNetworks :=
  ((doc.services.get? service).map ComposeService.networks).getD .unset

/-- The alias a service carries on the proxy network: none when it is not on it, and the
empty one when it is attached without an alias. -/
def serviceProxyAlias (service : String) : Option String :=
  match doc.networksOf service with
  | .unset => none
  | .seq names => if names.contains proxyNetwork then some "" else none
  | .map entries =>
    (entries.get? proxyNetwork).map fun entry => ((entry.aliases.getD []).head?).getD ""

/-- The names of a service on the proxy network. Compose adds the bare name of the service
to the aliases that are written. -/
def proxyNames (service : String) : List String :=
  match doc.networksOf service with
  | .unset => []
  | .seq names => if names.contains proxyNetwork then [service] else []
  | .map entries =>
    match entries.get? proxyNetwork with
    | none => []
    | some entry => service :: entry.aliases.getD []

/-- The `networks` of a service in the map form, `default` being what a service that names
none is on. -/
def networkEntries : ServiceNetworks → Table String NetworkEntry
  | .map entries => entries
  | .seq names => names.foldl (fun entries name => entries.set name ⟨none⟩) .empty
  | .unset => Table.empty.set "default" ⟨none⟩

/-- Put `service` on the proxy network under `networkAlias`, and declare the network as an
external one. -/
def attachToProxyNetwork (service networkAlias : String) : Except String ComposeDoc :=
  let current := (doc.services.get? service).getD ⟨none, .unset⟩
  if current.networkMode.isSome then
    .error s!"{service} uses network_mode and can't join a docker network — route to a published host port instead"
  else
    let declared :=
      match doc.networks.get? proxyNetwork with
      | some (.settings _) => doc.networks
      | _ => doc.networks.set proxyNetwork (.settings true)
    let entries := (networkEntries current.networks).set proxyNetwork ⟨some [networkAlias]⟩
    .ok ⟨declared, doc.services.set service { current with networks := .map entries }⟩

end ComposeDoc

/-! ### Attaching -/

section Attach

variable {doc doc' : ComposeDoc} {service networkAlias : String}

theorem attach_networksOf (h : doc.attachToProxyNetwork service networkAlias = .ok doc') :
    (∃ entries : Table String NetworkEntry,
      doc'.networksOf service = .map (entries.set proxyNetwork ⟨some [networkAlias]⟩)) ∧
    ∀ other ≠ service, doc'.networksOf other = doc.networksOf other := by
  rw [ComposeDoc.attachToProxyNetwork] at h
  dsimp only at h
  split at h
  · exact absurd h (by simp)
  obtain rfl := Except.ok.inj h
  constructor
  · refine ⟨ComposeDoc.networkEntries ((doc.services.get? service).getD ⟨none, .unset⟩).networks, ?_⟩
    rw [ComposeDoc.networksOf, Table.get?_set_self]
    rfl
  · intro other h_other
    rw [ComposeDoc.networksOf, Table.get?_set_of_ne _ _ h_other]
    rfl

/-- **The service attached** has the alias, beside its own name. -/
theorem attach_self (h : doc.attachToProxyNetwork service networkAlias = .ok doc') :
    doc'.serviceProxyAlias service = some networkAlias ∧
      doc'.proxyNames service = [service, networkAlias] := by
  obtain ⟨entries, h_map⟩ := (attach_networksOf h).1
  constructor
  · rw [ComposeDoc.serviceProxyAlias, h_map]
    dsimp only
    rw [Table.get?_set_self]
    rfl
  · rw [ComposeDoc.proxyNames, h_map]
    dsimp only
    rw [Table.get?_set_self]
    rfl

/-- **The other services** are on the networks they were on. -/
theorem attach_other (h : doc.attachToProxyNetwork service networkAlias = .ok doc')
    {other : String} (h_other : other ≠ service) :
    doc'.serviceProxyAlias other = doc.serviceProxyAlias other ∧
      doc'.proxyNames other = doc.proxyNames other := by
  have h_same := (attach_networksOf h).2 other h_other
  constructor
  · rw [ComposeDoc.serviceProxyAlias, h_same]
    rfl
  · rw [ComposeDoc.proxyNames, h_same]
    rfl

/-- A service that carries an alias is on the network. -/
theorem proxyNames_ne_nil (h : doc.serviceProxyAlias service = some networkAlias) :
    doc.proxyNames service ≠ [] := by
  rw [ComposeDoc.serviceProxyAlias] at h
  rw [ComposeDoc.proxyNames]
  cases h_networks : doc.networksOf service with
  | unset =>
    rw [h_networks] at h
    exact absurd h (by simp)
  | seq names =>
    rw [h_networks] at h
    dsimp only at h ⊢
    split at h
    case isTrue h_in =>
      rw [if_pos h_in]
      simp
    case isFalse => exact absurd h (by simp)
  | map entries =>
    rw [h_networks] at h
    dsimp only at h ⊢
    obtain ⟨entry, h_entry, -⟩ := Option.map_eq_some_iff.mp h
    rw [h_entry]
    simp

end Attach

end ServerCentral.Proxy
