import ServerCentral.ClientIp.Canonical
import ServerCentral.ClientIp.TrustedEntries

/-!
# The client of a forwarded request

A header of a peer that is no trusted proxy is ignored. Behind a trusted peer the client is the
rightmost hop of the chain that is no trusted proxy itself: what stands left of it may come from
anyone, and `client_ip_resolved` says that it makes no difference.
-/

open Framework

namespace ServerCentral.ClientIp

/-! ### Hops -/

/-- An entry covers the address. -/
def Covered (trusted : List Cidr) (a : Address) : Prop :=
  ∃ cidr ∈ trusted, Within a cidr.address cidr.bits

def CoveredPeer (trusted : List Cidr) (peer : Option Text) : Prop :=
  ∃ text a, peer = some text ∧ parseIp text = some a ∧ Covered trusted a

/-- An entry that does not parse, or whose address is covered. -/
def Skipped (trusted : List Cidr) (entry : Text) : Prop :=
  ∀ a, parseIp entry = some a → Covered trusted a

/-- The rightmost entry of the chain that parses and is not covered has the address `a`. -/
def RightmostHop (trusted : List Cidr) (chain : List Text) (a : Address) : Prop :=
  ∃ before entry after, chain = before ++ entry :: after ∧ parseIp entry = some a ∧
    ¬Covered trusted a ∧ ∀ later ∈ after, Skipped trusted later

theorem isTrusted_iff {trusted : List Cidr} {a : Address} :
    isTrusted (some a) trusted = true ↔ Covered trusted a := by
  rw [isTrusted, matchTrusted, Option.bind_some, List.find?_isSome, Covered]
  simp only [inCidr_iff]

theorem isTrusted_peer {trusted : List Cidr} {peer : Option Text} :
    isTrusted (peer.bind parseIp) trusted = true ↔ CoveredPeer trusted peer := by
  constructor
  · intro h
    cases h_bytes : peer.bind parseIp with
    | none =>
      rw [h_bytes] at h
      cases h
    | some a =>
      rw [h_bytes] at h
      obtain ⟨text, h_peer, h_a⟩ := Option.bind_eq_some_iff.mp h_bytes
      exact ⟨text, a, h_peer, h_a, (isTrusted_iff).mp h⟩
  · rintro ⟨text, a, rfl, h_a, h⟩
    rw [Option.bind_some, h_a]
    exact (isTrusted_iff).mpr h

theorem untrustedHop_eq_some {trusted : List Cidr} {entry : Text} {a : Address}
    (h_a : parseIp entry = some a) (h : ¬Covered trusted a) :
    untrustedHop trusted entry = some (format a) := by
  rw [untrustedHop, h_a]
  exact if_neg fun h_trusted => h (isTrusted_iff.mp h_trusted)

theorem untrustedHop_eq_none {trusted : List Cidr} {entry : Text} :
    untrustedHop trusted entry = none ↔ Skipped trusted entry := by
  rw [untrustedHop, Skipped]
  cases h_a : parseIp entry with
  | none => simp
  | some a =>
    simp only [Option.some.injEq, forall_eq', ← isTrusted_iff]
    split <;> simp_all

/-! ### Walking the chain -/

/-- The walk ends at the rightmost hop. -/
theorem walk_rightmost {trusted : List Cidr} {chain : List Text} {a : Address}
    (h : RightmostHop trusted chain a) :
    chain.reverse.findSome? (untrustedHop trusted) = some (format a) := by
  obtain ⟨before, entry, after, rfl, h_a, h_covered, h_after⟩ := h
  have h_later : after.reverse.findSome? (untrustedHop trusted) = none := by
    rw [List.findSome?_eq_none_iff]
    intro later h_later
    exact (untrustedHop_eq_none).mpr (h_after later (List.mem_reverse.mp h_later))
  rw [List.reverse_append, List.reverse_cons, List.append_assoc, List.findSome?_append, h_later,
    Option.none_or, List.singleton_append, List.findSome?_cons,
    untrustedHop_eq_some h_a h_covered]

theorem walk_skipped {trusted : List Cidr} {chain : List Text}
    (h : ∀ entry ∈ chain, Skipped trusted entry) :
    chain.reverse.findSome? (untrustedHop trusted) = none := by
  rw [List.findSome?_eq_none_iff]
  intro entry h_entry
  exact (untrustedHop_eq_none).mpr (h entry (List.mem_reverse.mp h_entry))

/-- A chain with a hop has a rightmost one. -/
theorem exists_rightmost {trusted : List Cidr} {chain : List Text}
    (h : ∃ entry ∈ chain, ¬Skipped trusted entry) : ∃ a, RightmostHop trusted chain a := by
  induction chain with
  | nil =>
    obtain ⟨entry, h_entry, -⟩ := h
    cases h_entry
  | cons first chain ih =>
    by_cases h_rest : ∃ entry ∈ chain, ¬Skipped trusted entry
    · obtain ⟨a, before, entry, after, rfl, h_hop⟩ := ih h_rest
      exact ⟨a, first :: before, entry, after, rfl, h_hop⟩
    · have h_after : ∀ later ∈ chain, Skipped trusted later := by
        intro later h_later
        by_contra h_hop
        exact h_rest ⟨later, h_later, h_hop⟩
      obtain ⟨entry, h_entry, h_hop⟩ := h
      obtain rfl | h_entry := List.mem_cons.mp h_entry
      · obtain ⟨a, h_a⟩ := not_forall.mp h_hop
        obtain ⟨h_a, h_covered⟩ := Classical.not_imp.mp h_a
        exact ⟨a, [], entry, chain, rfl, h_a, h_covered, h_after⟩
      · exact absurd (h_after entry h_entry) h_hop

theorem RightmostHop.append {trusted : List Cidr} {chain : List Text} {a : Address}
    (h : RightmostHop trusted chain a) (front : List Text) :
    RightmostHop trusted (front ++ chain) a := by
  obtain ⟨before, entry, after, rfl, h_hop⟩ := h
  exact ⟨front ++ before, entry, after, (List.append_assoc _ _ _).symm, h_hop⟩

/-- **A value put in front**, up to a comma, is a chain in front. -/
theorem parseForwardedChain_append (headerName w v : Text) :
    parseForwardedChain headerName (w ++ ',' :: v) =
      parseForwardedChain headerName w ++ parseForwardedChain headerName v := by
  rw [parseForwardedChain, parseForwardedChain, parseForwardedChain,
    List.splitOn_append_cons_self]
  split
  · exact List.map_append
  · exact List.flatMap_append

theorem parseIp_nil : parseIp [] = none := rfl

/-- The chain of no value has no hop. -/
theorem skipped_empty (trusted : List Cidr) (headerName : Text) :
    ∀ entry ∈ parseForwardedChain headerName [], Skipped trusted entry := by
  intro entry h_entry a h_a
  rw [parseForwardedChain] at h_entry
  split at h_entry
  · obtain rfl : entry = [] := by simpa [stripPort, trim, bracketed] using h_entry
    rw [parseIp_nil] at h_a
    cases h_a
  · simp [forwardedFor, splitFirst] at h_entry

/-! ### The result -/

theorem resolve_direct {trusted : List Cidr} {peer value : Option Text} {headerName : Text}
    (h : ¬CoveredPeer trusted peer ∨ someText value = none) :
    resolveClientIp peer value trusted headerName = peer.map peerText := by
  rw [resolveClientIp]
  split
  · rfl
  · next v h_value =>
    obtain h_peer | h_none := h
    · have h_untrusted : isTrusted (peer.bind parseIp) trusted = false :=
        Bool.eq_false_iff.mpr fun h_trusted => h_peer (isTrusted_peer.mp h_trusted)
      rw [if_pos (.inr h_untrusted)]
    · rw [h_none] at h_value
      cases h_value

/-- Behind a covered peer the chain is walked. -/
theorem resolve_chain {trusted : List Cidr} {peer : Option Text} (h : CoveredPeer trusted peer)
    {headerName v : Text} (h_v : v ≠ []) :
    resolveClientIp peer (some v) trusted headerName =
      ((parseForwardedChain headerName v).reverse.findSome? (untrustedHop trusted)).or
        (peer.map peerText) := by
  have h_value : someText (some v) = some v := by simp [someText, h_v]
  have h_trusted : isTrusted (peer.bind parseIp) trusted = true := (isTrusted_peer).mpr h
  have h_some : trusted ≠ [] := by
    rintro rfl
    obtain ⟨-, -, -, -, cidr, h_cidr, -⟩ := h
    cases h_cidr
  rw [resolveClientIp, h_value]
  simp [h_trusted, h_some]

/-- What holds of the client of a request from `peer`, for every value of its header. -/
structure Resolved (trusted : List Cidr) (peer : Option Text) (headerName : Text) : Prop where
  direct : ∀ value, ¬CoveredPeer trusted peer ∨ someText value = none →
    resolveClientIp peer value trusted headerName = peer.map peerText
  hop : CoveredPeer trusted peer → ∀ v ≠ [], ∀ a,
    RightmostHop trusted (parseForwardedChain headerName v) a →
      resolveClientIp peer (some v) trusted headerName = some (format a)
  fallback : CoveredPeer trusted peer → ∀ v ≠ [],
    (∀ entry ∈ parseForwardedChain headerName v, Skipped trusted entry) →
      resolveClientIp peer (some v) trusted headerName = peer.map peerText
  forged : ∀ v w, (∃ entry ∈ parseForwardedChain headerName v, ¬Skipped trusted entry) →
    resolveClientIp peer (some (w ++ ',' :: v)) trusted headerName =
      resolveClientIp peer (some v) trusted headerName

/-- **Main result.** The client is the peer, or the rightmost hop of the chain that is no trusted
proxy, whatever a client sends in front; and a canonical text stands for the address it was
made from. -/
theorem client_ip_resolved (trusted : List Cidr) (peer : Option Text) (headerName : Text) :
    Resolved trusted peer headerName ∧ (∀ a, parseIp (format a) = some a) ∧
      ∀ text, parseIp (peerText text) = parseIp text := by
  have h_hop : CoveredPeer trusted peer → ∀ v ≠ [], ∀ a,
      RightmostHop trusted (parseForwardedChain headerName v) a →
        resolveClientIp peer (some v) trusted headerName = some (format a) := by
    intro h_peer v h_v a h_a
    rw [resolve_chain h_peer h_v, walk_rightmost h_a, Option.some_or]
  refine ⟨⟨fun value => resolve_direct, h_hop, ?_, ?_⟩, parseIp_format, ?_⟩
  · intro h_peer v h_v h_skipped
    rw [resolve_chain h_peer h_v, walk_skipped h_skipped, Option.none_or]
  · intro v w h_some
    by_cases h_peer : CoveredPeer trusted peer
    · have h_v : v ≠ [] := by
        rintro rfl
        obtain ⟨entry, h_entry, h_entry_hop⟩ := h_some
        exact h_entry_hop (skipped_empty trusted headerName entry h_entry)
      obtain ⟨a, h_a⟩ := exists_rightmost h_some
      have h_front : RightmostHop trusted (parseForwardedChain headerName (w ++ ',' :: v)) a := by
        rw [parseForwardedChain_append]
        exact h_a.append _
      rw [h_hop h_peer _ (by simp) a h_front, h_hop h_peer v h_v a h_a]
    · rw [resolve_direct (.inl h_peer), resolve_direct (.inl h_peer)]
  · intro text
    rw [peerText]
    split
    · next a h_a => rw [h_a, parseIp_format]
    · rfl

/-- No header speaks for a peer that is no trusted proxy. -/
theorem clientIp_direct {trusted : List Cidr} {peer : Option Text} (h : ¬CoveredPeer trusted peer)
    (headers : Text → Option Text) (forwardedHeader : Text) :
    clientIp peer headers trusted forwardedHeader = peer.map peerText :=
  resolve_direct (.inl h)

end ServerCentral.ClientIp
