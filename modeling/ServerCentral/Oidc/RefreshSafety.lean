import ServerCentral.Oidc.Refresh

/-!
# Safety of refresh-token rotation

The rotation guarantees of `RefreshTokenStore` along every run of
`refreshMachine`, assembled in `rotation_safe`.

Every step is one of three shapes (`RefreshShape`): it only drops rows, it opens a
new family with one fresh row, or it spends a row and adds one fresh unspent row
of the same family. The state invariant `RefreshInv` is read off the shapes: rows
sit under minted keys and in known families, the rows of a family carry the same
grant, and at most one of them is unspent.

The guarantees about the past of a token are stable predicates, each kept by
every shape because a minted key is never drawn again:

* `Spent` — a key is minted and holds no unspent row, so it never rotates again;
* `InFamily` — a minted key, as long as it holds a row, holds one of the family
  it was minted in;
* `Dead` — a known family without rows, which therefore never gets one again.
-/

open Framework

namespace ServerCentral.Oidc

variable {digest : String → String}

/-! ### What the operations do to the rows -/

namespace RefreshTokenStore

theorem get?_revokeWhere {s : RefreshTokenStore} {p : RefreshRecord → Bool} {k : String}
    {r : RefreshRecord} :
    (s.revokeWhere p).store.tokens.get? k = some r ↔
      s.tokens.get? k = some r ∧ p r = false := by
  simp [revokeWhere, Table.get?_filter]

/-- A row after `append` is the fresh one or an old one. -/
theorem get?_append {s : RefreshTokenStore} {familyId token : String} {params : RefreshParams}
    {cutoffAt issuedAt : ℕ} {k : String} {r : RefreshRecord}
    (h : (s.append digest familyId params token cutoffAt issuedAt).tokens.get? k = some r) :
    (k = digest token ∧ r.familyId = familyId ∧ r.params = params ∧ r.usedAt = none) ∨
      k ≠ digest token ∧ s.tokens.get? k = some r := by
  rcases Table.get?_set_eq_some h with ⟨hk, rfl⟩ | ⟨hk, h⟩
  · exact .inl ⟨hk, rfl, rfl, rfl⟩
  · exact .inr ⟨hk, (Table.get?_filter.mp h).1⟩

/-- **The answers of `rotate`.** Either the rows only get fewer, or an unspent row
is spent and its replacement appended. -/
theorem rotate_cases (digest : String → String) (s : RefreshTokenStore) (token next : String)
    (checkedAt usedAt cutoffAt issuedAt : ℕ) :
    let c := s.rotate digest token next checkedAt usedAt cutoffAt issuedAt
    ((c.result = .rejected ∨ c.result = .reused) ∧
        ∀ k r, c.store.tokens.get? k = some r → s.tokens.get? k = some r) ∨
      ∃ rec, s.tokens.get? (digest token) = some rec ∧ rec.usedAt = none ∧
        c.result = .rotated rec.grant next ∧
        ∀ k r, c.store.tokens.get? k = some r →
          (k = digest next ∧ r.familyId = rec.familyId ∧ r.params = rec.params ∧
            r.usedAt = none) ∨
          (k ≠ digest next ∧ k = digest token ∧ r = { rec with usedAt := some usedAt }) ∨
          (k ≠ digest next ∧ k ≠ digest token ∧ s.tokens.get? k = some r) := by
  intro c
  cases h_get : s.tokens.get? (digest token) with
  | none =>
    have hc : c = ⟨s, false, .rejected⟩ := by simp [c, rotate, h_get]
    rw [hc]
    exact .inl ⟨.inl rfl, fun _ _ h => h⟩
  | some rec =>
    cases h_used : rec.usedAt with
    | some t =>
      have hc : c = ⟨(s.revokeFamily rec.familyId).store,
          (s.revokeFamily rec.familyId).persists, .reused⟩ := by
        simp [c, rotate, h_get, h_used]
      rw [hc]
      exact .inl ⟨.inr rfl, fun _ _ h => (get?_revokeWhere.mp h).1⟩
    | none =>
      by_cases h_exp : rec.expiresAt < checkedAt
      · have hc : c = ⟨⟨s.tokens.erase (digest token)⟩, true, .rejected⟩ := by
          simp [c, rotate, h_get, h_used, h_exp]
        rw [hc]
        exact .inl ⟨.inl rfl, fun _ _ h => (Table.get?_erase.mp h).1⟩
      · refine .inr ⟨rec, rfl, h_used, ?_, fun k r h => ?_⟩
        · simp [c, rotate, h_get, h_used, h_exp]
        · simp only [c, rotate, h_get, h_used, h_exp, Option.isSome_none, Bool.false_eq_true,
            if_false] at h
          rcases get?_append h with h | ⟨h_next, h⟩
          · exact .inl h
          · rw [Table.get?_modify] at h
            obtain ⟨r₀, h₀, rfl⟩ := Option.map_eq_some_iff.mp h
            by_cases hk : k = digest token
            · obtain rfl : rec = r₀ := by simpa [hk, h_get] using h₀
              exact .inr (.inl ⟨h_next, hk, if_pos hk⟩)
            · exact .inr (.inr ⟨h_next, hk, by rw [if_neg hk]; exact h₀⟩)

/-- A `rotate` that answers `reused` has emptied the family. -/
theorem rotate_of_used {s : RefreshTokenStore} {token : String} {rec : RefreshRecord}
    (h_get : s.tokens.get? (digest token) = some rec) (h_used : rec.usedAt ≠ none)
    (next : String) (checkedAt usedAt cutoffAt issuedAt : ℕ) :
    s.rotate digest token next checkedAt usedAt cutoffAt issuedAt =
      ⟨(s.revokeFamily rec.familyId).store, (s.revokeFamily rec.familyId).persists,
        .reused⟩ := by
  have h_some : rec.usedAt.isSome = true := Option.isSome_iff_ne_none.mpr h_used
  simp [rotate, h_get, h_some]

theorem revoke_of_get? {s : RefreshTokenStore} {token : String} {rec : RefreshRecord}
    (h_get : s.tokens.get? (digest token) = some rec) :
    s.revoke digest token =
      ⟨(s.revokeFamily rec.familyId).store, (s.revokeFamily rec.familyId).persists, true⟩ := by
  simp [revoke, h_get]

theorem get?_revoke {s : RefreshTokenStore} {token k : String} {r : RefreshRecord}
    (h : (s.revoke digest token).store.tokens.get? k = some r) : s.tokens.get? k = some r := by
  cases h_get : s.tokens.get? (digest token) with
  | none => simpa [revoke, h_get] using h
  | some rec =>
    rw [revoke_of_get? h_get] at h
    exact (get?_revokeWhere.mp h).1

end RefreshTokenStore

/-! ### What a trace entry says -/

/-- The token a step successfully rotated, the grant it resolved to and its
replacement. -/
def rotatedBy : RefreshOp × RefreshEvent → Option (String × RefreshGrant × String)
  | (.rotate token _ _ _ _ _, .called (.rotated (.rotated grant next))) =>
    some (token, grant, next)
  | _ => none

/-- The token a step minted, with its family. -/
def mintedBy : RefreshOp × RefreshEvent → Option (String × String)
  | (_, .called (.issued familyId token)) => some (familyId, token)
  | (_, .called (.rotated (.rotated grant next))) => some (grant.familyId, next)
  | _ => none

/-- `token` was issued in the family at some point of the trace. The entry is the
call, so a token whose rotation is still persisting counts. -/
def IssuedIn (tr : List (RefreshOp × RefreshEvent)) (familyId token : String) : Prop :=
  ∃ x ∈ tr, mintedBy x = some (familyId, token)

/-- The families that a call made in `s` is meant to end: that of a spent token
presented again, that of a revoked token, the named one, and those held by the
revoked user or client. -/
def Ends (digest : String → String) (s : RefreshState) (familyId : String) : RefreshOp → Prop
  | .rotate token _ _ _ _ _ => ∃ rec, s.store.tokens.get? (digest token) = some rec ∧
      rec.usedAt ≠ none ∧ rec.familyId = familyId
  | .revoke token => ∃ rec, s.store.tokens.get? (digest token) = some rec ∧
      rec.familyId = familyId
  | .revokeFamily id => id = familyId ∧ ∃ rec ∈ s.store.tokens.values, rec.familyId = familyId
  | .revokeForUser userId => ∃ rec ∈ s.store.tokens.values,
      rec.userId = userId ∧ rec.familyId = familyId
  | .revokeForClient clientId => ∃ rec ∈ s.store.tokens.values,
      rec.clientId = clientId ∧ rec.familyId = familyId
  | _ => False

/-! ### The shapes of a step -/

/-- What one step does to the rows. -/
inductive RefreshShape (digest : String → String) (s s' : RefreshState) :
    RefreshOp × RefreshEvent → Prop
  | drops {x : RefreshOp × RefreshEvent} (h_rot : rotatedBy x = none) (h_mint : mintedBy x = none)
      (h_rows : ∀ k r, s'.store.tokens.get? k = some r → s.store.tokens.get? k = some r) :
      RefreshShape digest s s' x
  | opens {x : RefreshOp × RefreshEvent} (familyId token : String) (h_rot : rotatedBy x = none)
      (h_mint : mintedBy x = some (familyId, token)) (h_token : digest token ∉ s.minted)
      (h_family : familyId ∉ s.families) (h_token' : digest token ∈ s'.minted)
      (h_family' : familyId ∈ s'.families)
      (h_rows : ∀ k r, s'.store.tokens.get? k = some r →
        (k = digest token ∧ r.familyId = familyId ∧ r.usedAt = none) ∨
          s.store.tokens.get? k = some r) :
      RefreshShape digest s s' x
  | spends {x : RefreshOp × RefreshEvent} (token next : String) (rec : RefreshRecord) (usedAt : ℕ)
      (h_rot : rotatedBy x = some (token, rec.grant, next))
      (h_mint : mintedBy x = some (rec.familyId, next))
      (h_rec : s.store.tokens.get? (digest token) = some rec) (h_unused : rec.usedAt = none)
      (h_next : digest next ∉ s.minted) (h_next' : digest next ∈ s'.minted)
      (h_rows : ∀ k r, s'.store.tokens.get? k = some r →
        (k = digest next ∧ r.familyId = rec.familyId ∧ r.params = rec.params ∧
          r.usedAt = none) ∨
        (k = digest token ∧ r = { rec with usedAt := some usedAt }) ∨
        (k ≠ digest token ∧ s.store.tokens.get? k = some r)) :
      RefreshShape digest s s' x

theorem step_eq {s s' : RefreshState} {op : RefreshOp} {e : RefreshEvent}
    (h : (refreshMachine digest).step s op = some (s', e)) :
    s.Fresh digest op ∧ s.call digest op = some (s', e) := by
  simp only [refreshMachine] at h
  split at h
  · next h_fresh => exact ⟨h_fresh, h⟩
  · exact absurd h (by simp)

/-- **Step inversion.** Minted keys and known families only grow, and the rows
change in one of the three shapes. -/
theorem step_shape {s s' : RefreshState} {op : RefreshOp} {e : RefreshEvent}
    (h : (refreshMachine digest).step s op = some (s', e)) :
    s.minted ⊆ s'.minted ∧ s.families ⊆ s'.families ∧ RefreshShape digest s s' (op, e) := by
  obtain ⟨⟨-, h_fresh⟩, h_call⟩ := step_eq h
  cases op with
  | issue params familyId token cutoffAt issuedAt =>
    obtain ⟨rfl, rfl⟩ := Prod.mk.inj (Option.some.inj h_call)
    refine ⟨List.subset_cons_self _ _, List.subset_cons_self _ _, .opens familyId token rfl rfl
      h_fresh.1 h_fresh.2 List.mem_cons_self List.mem_cons_self fun k r h_row => ?_⟩
    rcases RefreshTokenStore.get?_append h_row with ⟨hk, hf, -, hu⟩ | ⟨-, h_old⟩
    · exact .inl ⟨hk, hf, hu⟩
    · exact .inr h_old
  | rotate token next checkedAt usedAt cutoffAt issuedAt =>
    obtain ⟨rfl, rfl⟩ := Prod.mk.inj (Option.some.inj h_call)
    rcases RefreshTokenStore.rotate_cases digest s.store token next checkedAt usedAt cutoffAt issuedAt
      with ⟨h_res, h_rows⟩ | ⟨rec, h_rec, h_unused, h_res, h_rows⟩
    · rcases h_res with h_res | h_res
      · exact ⟨by simp [h_res], by simp, .drops (by rw [h_res]; rfl)
          (by rw [h_res]; rfl) h_rows⟩
      · exact ⟨by simp [h_res], by simp, .drops (by rw [h_res]; rfl)
          (by rw [h_res]; rfl) h_rows⟩
    · exact ⟨by simp [h_res], by simp, .spends token next rec usedAt (by rw [h_res]; rfl)
        (by rw [h_res]; rfl) h_rec h_unused h_fresh (by simp [h_res])
        fun k r h => (h_rows k r h).imp_right (Or.imp And.right And.right)⟩
  | revoke token =>
    obtain ⟨rfl, rfl⟩ := Prod.mk.inj (Option.some.inj h_call)
    exact ⟨List.Subset.refl _, List.Subset.refl _,
      .drops rfl rfl fun k r h_row => RefreshTokenStore.get?_revoke h_row⟩
  | revokeFamily id =>
    obtain ⟨rfl, rfl⟩ := Prod.mk.inj (Option.some.inj h_call)
    exact ⟨List.Subset.refl _, List.Subset.refl _,
      .drops rfl rfl fun k r h_row => (RefreshTokenStore.get?_revokeWhere.mp h_row).1⟩
  | revokeForUser id =>
    obtain ⟨rfl, rfl⟩ := Prod.mk.inj (Option.some.inj h_call)
    exact ⟨List.Subset.refl _, List.Subset.refl _,
      .drops rfl rfl fun k r h_row => (RefreshTokenStore.get?_revokeWhere.mp h_row).1⟩
  | revokeForClient id =>
    obtain ⟨rfl, rfl⟩ := Prod.mk.inj (Option.some.inj h_call)
    exact ⟨List.Subset.refl _, List.Subset.refl _,
      .drops rfl rfl fun k r h_row => (RefreshTokenStore.get?_revokeWhere.mp h_row).1⟩
  | pruneExpired now =>
    obtain ⟨rfl, rfl⟩ := Prod.mk.inj (Option.some.inj h_call)
    exact ⟨List.Subset.refl _, List.Subset.refl _,
      .drops rfl rfl fun k r h_row => (RefreshTokenStore.get?_revokeWhere.mp h_row).1⟩
  | written i =>
    obtain ⟨result, -, h_eq⟩ := Option.map_eq_some_iff.mp h_call
    obtain ⟨rfl, rfl⟩ := Prod.mk.inj h_eq
    exact ⟨List.Subset.refl _, List.Subset.refl _, .drops rfl rfl fun _ _ h_row => h_row⟩

/-! ### The state invariant -/

/-- The rows of one family carry one grant, and at most one of them is unspent. -/
structure FamiliesCoherent (s : RefreshTokenStore) : Prop where
  params_eq : ∀ k k' r r', s.tokens.get? k = some r → s.tokens.get? k' = some r' →
    r.familyId = r'.familyId → r.params = r'.params
  unused_unique : ∀ k k' r r', s.tokens.get? k = some r → s.tokens.get? k' = some r' →
    r.familyId = r'.familyId → r.usedAt = none → r'.usedAt = none → k = k'

/-- `FamiliesCoherent`, with the rows under minted keys and in known families. -/
structure RefreshInv (s : RefreshState) : Prop where
  minted : ∀ k r, s.store.tokens.get? k = some r → k ∈ s.minted
  family : ∀ k r, s.store.tokens.get? k = some r → r.familyId ∈ s.families
  coherent : FamiliesCoherent s.store

theorem RefreshInv.initial : RefreshInv .initial where
  minted := fun _ _ h => absurd h (by simp [RefreshState.initial])
  family := fun _ _ h => absurd h (by simp [RefreshState.initial])
  coherent :=
    ⟨fun _ _ _ _ h => absurd h (by simp [RefreshState.initial]),
      fun _ _ _ _ h => absurd h (by simp [RefreshState.initial])⟩

/-- **Invariant preservation**, one case for each shape. -/
theorem RefreshInv.step {s s' : RefreshState} {op : RefreshOp} {e : RefreshEvent}
    (hI : RefreshInv s) (h : (refreshMachine digest).step s op = some (s', e)) :
    RefreshInv s' := by
  obtain ⟨h_minted, h_families, h_shape⟩ := step_shape h
  cases h_shape with
  | drops _ _ h_rows =>
    exact ⟨fun k r h => h_minted (hI.minted k r (h_rows k r h)),
      fun k r h => h_families (hI.family k r (h_rows k r h)),
      fun k k' r r' h h' => hI.coherent.params_eq k k' r r' (h_rows k r h) (h_rows k' r' h'),
      fun k k' r r' h h' => hI.coherent.unused_unique k k' r r' (h_rows k r h) (h_rows k' r' h')⟩
  | opens familyId token _ _ h_token h_family h_token' h_family' h_rows =>
    -- an old row is not of the new family, which is not a known one
    have h_old : ∀ k r, s.store.tokens.get? k = some r → r.familyId ≠ familyId :=
      fun k r h h_eq => h_family (h_eq ▸ hI.family k r h)
    have h_new : ∀ k r, s'.store.tokens.get? k = some r → r.familyId = familyId →
        k = digest token := by
      intro k r h h_eq
      rcases h_rows k r h with ⟨hk, -⟩ | h
      · exact hk
      · exact absurd h_eq (h_old k r h)
    refine ⟨fun k r h => ?_, fun k r h => ?_, ⟨fun k k' r r' h h' h_eq => ?_,
      fun k k' r r' h h' h_eq hu hu' => ?_⟩⟩
    · rcases h_rows k r h with ⟨rfl, -⟩ | h
      · exact h_token'
      · exact h_minted (hI.minted k r h)
    · rcases h_rows k r h with ⟨-, rfl, -⟩ | h
      · exact h_family'
      · exact h_families (hI.family k r h)
    · rcases h_rows k r h with ⟨rfl, hf, -⟩ | h₀
      · obtain rfl := h_new k' r' h' (h_eq ▸ hf)
        rw [h] at h'
        rw [Option.some.inj h']
      · rcases h_rows k' r' h' with ⟨-, hf, -⟩ | h₀'
        · exact absurd (h_eq.trans hf) (h_old k r h₀)
        · exact hI.coherent.params_eq k k' r r' h₀ h₀' h_eq
    · rcases h_rows k r h with ⟨rfl, hf, -⟩ | h₀
      · exact (h_new k' r' h' (h_eq ▸ hf)).symm
      · rcases h_rows k' r' h' with ⟨-, hf, -⟩ | h₀'
        · exact absurd (h_eq.trans hf) (h_old k r h₀)
        · exact hI.coherent.unused_unique k k' r r' h₀ h₀' h_eq hu hu'
  | spends token next rec usedAt _ _ h_rec h_unused h_next h_next' h_rows =>
    -- every row of the family of `rec` carries the params of `rec`
    have h_params : ∀ k r, s'.store.tokens.get? k = some r → r.familyId = rec.familyId →
        r.params = rec.params := by
      intro k r h h_eq
      rcases h_rows k r h with ⟨-, -, hp, -⟩ | ⟨-, rfl⟩ | ⟨-, h⟩
      · exact hp
      · rfl
      · exact hI.coherent.params_eq k (digest token) r rec h h_rec h_eq
    -- its unspent row was the presented one, so only the new row is unspent now
    have h_unspent : ∀ k r, s'.store.tokens.get? k = some r → r.familyId = rec.familyId →
        r.usedAt = none → k = digest next := by
      intro k r h h_eq hu
      rcases h_rows k r h with ⟨hk, -⟩ | ⟨-, rfl⟩ | ⟨hk, h⟩
      · exact hk
      · exact absurd hu (by simp)
      · exact absurd (hI.coherent.unused_unique k (digest token) r rec h h_rec h_eq hu h_unused) hk
    refine ⟨fun k r h => ?_, fun k r h => ?_, ⟨fun k k' r r' h h' h_eq => ?_,
      fun k k' r r' h h' h_eq hu hu' => ?_⟩⟩
    · rcases h_rows k r h with ⟨rfl, -⟩ | ⟨rfl, -⟩ | ⟨-, h⟩
      · exact h_next'
      · exact h_minted (hI.minted _ _ h_rec)
      · exact h_minted (hI.minted k r h)
    · rcases h_rows k r h with ⟨-, hf, -⟩ | ⟨-, rfl⟩ | ⟨-, h⟩
      · rw [hf]; exact h_families (hI.family _ rec h_rec)
      · exact h_families (hI.family _ rec h_rec)
      · exact h_families (hI.family k r h)
    · by_cases hf : r.familyId = rec.familyId
      · rw [h_params k r h hf, h_params k' r' h' (h_eq ▸ hf)]
      · rcases h_rows k r h with ⟨-, hf', -⟩ | ⟨-, rfl⟩ | ⟨-, h₀⟩
        · exact absurd hf' hf
        · exact absurd rfl hf
        · rcases h_rows k' r' h' with ⟨-, hf', -⟩ | ⟨-, rfl⟩ | ⟨-, h₀'⟩
          · exact absurd (h_eq.trans hf') hf
          · exact absurd h_eq hf
          · exact hI.coherent.params_eq k k' r r' h₀ h₀' h_eq
    · by_cases hf : r.familyId = rec.familyId
      · rw [h_unspent k r h hf hu, h_unspent k' r' h' (h_eq ▸ hf) hu']
      · rcases h_rows k r h with ⟨-, hf', -⟩ | ⟨-, rfl⟩ | ⟨-, h₀⟩
        · exact absurd hf' hf
        · exact absurd rfl hf
        · rcases h_rows k' r' h' with ⟨-, hf', -⟩ | ⟨-, rfl⟩ | ⟨-, h₀'⟩
          · exact absurd (h_eq.trans hf') hf
          · exact absurd h_eq hf
          · exact hI.coherent.unused_unique k k' r r' h₀ h₀' h_eq hu hu'

theorem RefreshInv.of_run {tr : List (RefreshOp × RefreshEvent)} {s : RefreshState}
    (h : (refreshMachine digest).Run tr s) : RefreshInv s :=
  h.invariant .initial fun _ _ _ _ hI _ hs => hI.step hs

/-! ### Stable predicates -/

/-- The key is minted and holds no unspent row. -/
def Spent (k : String) (s : RefreshState) : Prop :=
  k ∈ s.minted ∧ ∀ r, s.store.tokens.get? k = some r → r.usedAt ≠ none

/-- The key is minted and whatever row it holds is of the family. -/
def InFamily (k familyId : String) (s : RefreshState) : Prop :=
  k ∈ s.minted ∧ ∀ r, s.store.tokens.get? k = some r → r.familyId = familyId

/-- The family is known and has no row. -/
def Dead (familyId : String) (s : RefreshState) : Prop :=
  familyId ∈ s.families ∧ ∀ k r, s.store.tokens.get? k = some r → r.familyId ≠ familyId

theorem Spent.step {k : String} {s s' : RefreshState} {op : RefreshOp} {e : RefreshEvent}
    (hS : Spent k s) (h : (refreshMachine digest).step s op = some (s', e)) : Spent k s' := by
  obtain ⟨h_minted, -, h_shape⟩ := step_shape h
  refine ⟨h_minted hS.1, fun r h_get => ?_⟩
  cases h_shape with
  | drops _ _ h_rows => exact hS.2 r (h_rows k r h_get)
  | opens familyId token _ _ h_token _ _ _ h_rows =>
    rcases h_rows k r h_get with ⟨rfl, -⟩ | h_old
    · exact absurd hS.1 h_token
    · exact hS.2 r h_old
  | spends token next rec usedAt _ _ h_rec h_unused h_next _ h_rows =>
    rcases h_rows k r h_get with ⟨rfl, -⟩ | ⟨-, rfl⟩ | ⟨-, h_old⟩
    · exact absurd hS.1 h_next
    · simp
    · exact hS.2 r h_old

theorem InFamily.step {k familyId : String} {s s' : RefreshState} {op : RefreshOp}
    {e : RefreshEvent} (hF : InFamily k familyId s)
    (h : (refreshMachine digest).step s op = some (s', e)) : InFamily k familyId s' := by
  obtain ⟨h_minted, -, h_shape⟩ := step_shape h
  refine ⟨h_minted hF.1, fun r h_get => ?_⟩
  cases h_shape with
  | drops _ _ h_rows => exact hF.2 r (h_rows k r h_get)
  | opens familyId' token _ _ h_token _ _ _ h_rows =>
    rcases h_rows k r h_get with ⟨rfl, -⟩ | h_old
    · exact absurd hF.1 h_token
    · exact hF.2 r h_old
  | spends token next rec usedAt _ _ h_rec h_unused h_next _ h_rows =>
    rcases h_rows k r h_get with ⟨rfl, -⟩ | ⟨rfl, rfl⟩ | ⟨-, h_old⟩
    · exact absurd hF.1 h_next
    · exact hF.2 rec h_rec
    · exact hF.2 r h_old

theorem Dead.step {familyId : String} {s s' : RefreshState} {op : RefreshOp} {e : RefreshEvent}
    (hD : Dead familyId s) (h : (refreshMachine digest).step s op = some (s', e)) :
    Dead familyId s' := by
  obtain ⟨-, h_families, h_shape⟩ := step_shape h
  refine ⟨h_families hD.1, fun k r h_get => ?_⟩
  cases h_shape with
  | drops _ _ h_rows => exact hD.2 k r (h_rows k r h_get)
  | opens familyId' token _ _ _ h_family _ _ h_rows =>
    rcases h_rows k r h_get with ⟨-, hf, -⟩ | h_old
    · rintro rfl
      exact h_family (hf ▸ hD.1)
    · exact hD.2 k r h_old
  | spends token next rec usedAt _ _ h_rec _ _ _ h_rows =>
    rcases h_rows k r h_get with ⟨-, hf, -⟩ | ⟨-, rfl⟩ | ⟨-, h_old⟩
    · rw [hf]; exact hD.2 _ rec h_rec
    · exact hD.2 _ rec h_rec
    · exact hD.2 k r h_old

/-- What a successful rotation says about the state it starts from and leaves. -/
theorem rotatedBy_step {s s' : RefreshState} {op : RefreshOp} {e : RefreshEvent}
    {token next : String} {grant : RefreshGrant}
    (h : (refreshMachine digest).step s op = some (s', e))
    (h_rot : rotatedBy (op, e) = some (token, grant, next)) :
    ∃ rec, s.store.tokens.get? (digest token) = some rec ∧ rec.usedAt = none ∧
      grant = rec.grant ∧ (RefreshInv s → Spent (digest token) s') := by
  obtain ⟨h_minted, -, h_shape⟩ := step_shape h
  cases h_shape with
  | drops h_none => exact absurd h_rot (by simp [h_none])
  | opens _ _ h_none => exact absurd h_rot (by simp [h_none])
  | spends token' next' rec usedAt h_rot' _ h_rec h_unused h_next _ h_rows =>
    obtain ⟨rfl, rfl, rfl⟩ : token = token' ∧ grant = rec.grant ∧ next = next' := by
      simpa [h_rot'] using h_rot.symm.trans h_rot'
    refine ⟨rec, h_rec, h_unused, rfl, fun hI => ?_⟩
    have h_key := hI.minted _ _ h_rec
    refine ⟨h_minted h_key, fun r h_get => ?_⟩
    rcases h_rows _ r h_get with ⟨h_eq, -⟩ | ⟨-, rfl⟩ | ⟨h_ne, -⟩
    · exact absurd (h_eq ▸ h_key) h_next
    · simp
    · exact absurd rfl h_ne

/-- A minted token belongs to its family from the step that mints it on. -/
theorem mintedBy_step {s s' : RefreshState} {op : RefreshOp} {e : RefreshEvent}
    {familyId token : String} (hI : RefreshInv s)
    (h : (refreshMachine digest).step s op = some (s', e))
    (h_mint : mintedBy (op, e) = some (familyId, token)) :
    InFamily (digest token) familyId s' ∧ ¬ Dead familyId s := by
  obtain ⟨-, -, h_shape⟩ := step_shape h
  cases h_shape with
  | drops _ h_none => exact absurd h_mint (by simp [h_none])
  | opens familyId' token' _ h_mint' h_token h_family h_token' _ h_rows =>
    obtain ⟨rfl, rfl⟩ : familyId = familyId' ∧ token = token' := by
      simpa using h_mint.symm.trans h_mint'
    refine ⟨⟨h_token', fun r h_get => ?_⟩, fun hD => h_family hD.1⟩
    rcases h_rows _ r h_get with ⟨-, hf, -⟩ | h_old
    · exact hf
    · exact absurd (hI.minted _ r h_old) h_token
  | spends token' next rec usedAt _ h_mint' h_rec _ h_next h_next' h_rows =>
    obtain ⟨rfl, rfl⟩ : familyId = rec.familyId ∧ token = next := by
      simpa using h_mint.symm.trans h_mint'
    refine ⟨⟨h_next', fun r h_get => ?_⟩, fun hD => hD.2 _ rec h_rec rfl⟩
    rcases h_rows _ r h_get with ⟨-, hf, -⟩ | ⟨h_eq, -⟩ | ⟨-, h_old⟩
    · exact hf
    · exact absurd (h_eq ▸ hI.minted _ _ h_rec) h_next
    · exact absurd (hI.minted _ r h_old) h_next

/-- **A call ends the families it is meant to end.** -/
theorem Ends.dead {s s' : RefreshState} {op : RefreshOp} {e : RefreshEvent} {familyId : String}
    (hI : RefreshInv s) (h_ends : Ends digest s familyId op)
    (h : (refreshMachine digest).step s op = some (s', e)) : Dead familyId s' := by
  obtain ⟨-, h_call⟩ := step_eq h
  -- a family with a row that `p` selects has no row left, since its rows agree on `p`
  have h_where : ∀ (p : RefreshRecord → Bool) (k : String) (rec : RefreshRecord),
      s.store.tokens.get? k = some rec → rec.familyId = familyId → familyId ∈ s.families ∧
      ((∀ r, r.familyId = familyId → r.params = rec.params → p r = true) →
        ∀ k r, (s.store.revokeWhere p).store.tokens.get? k = some r →
          r.familyId ≠ familyId) := by
    intro p k rec h_get h_fam
    refine ⟨h_fam ▸ hI.family k rec h_get, fun hp k' r h_row h_eq => ?_⟩
    obtain ⟨h_old, h_keep⟩ := RefreshTokenStore.get?_revokeWhere.mp h_row
    have h_params := hI.coherent.params_eq k' k r rec h_old h_get (h_eq.trans h_fam.symm)
    rw [hp r h_eq h_params] at h_keep
    exact absurd h_keep (by simp)
  cases op with
  | issue => exact h_ends.elim
  | pruneExpired => exact h_ends.elim
  | written => exact h_ends.elim
  | rotate token next checkedAt usedAt cutoffAt issuedAt =>
    obtain ⟨rec, h_get, h_used, h_fam⟩ := h_ends
    obtain ⟨rfl, rfl⟩ := Prod.mk.inj (Option.some.inj h_call)
    rw [RefreshTokenStore.rotate_of_used h_get h_used]
    obtain ⟨h_known, h_rows⟩ := h_where (fun r => r.familyId = rec.familyId) _ rec h_get h_fam
    exact ⟨h_known, h_rows fun r hr _ => by simp [hr, h_fam]⟩
  | revoke token =>
    obtain ⟨rec, h_get, h_fam⟩ := h_ends
    obtain ⟨rfl, rfl⟩ := Prod.mk.inj (Option.some.inj h_call)
    rw [RefreshTokenStore.revoke_of_get? h_get]
    obtain ⟨h_known, h_rows⟩ := h_where (fun r => r.familyId = rec.familyId) _ rec h_get h_fam
    exact ⟨h_known, h_rows fun r hr _ => by simp [hr, h_fam]⟩
  | revokeFamily id =>
    obtain ⟨rfl, rec, h_mem, h_fam⟩ := h_ends
    obtain ⟨k, h_get⟩ := Table.get?_of_mem_values.mp h_mem
    obtain ⟨rfl, rfl⟩ := Prod.mk.inj (Option.some.inj h_call)
    obtain ⟨h_known, h_rows⟩ := h_where (fun r => r.familyId = id) _ rec h_get h_fam
    exact ⟨h_known, h_rows fun r hr _ => by simp [hr]⟩
  | revokeForUser userId =>
    obtain ⟨rec, h_mem, rfl, h_fam⟩ := h_ends
    obtain ⟨k, h_get⟩ := Table.get?_of_mem_values.mp h_mem
    obtain ⟨rfl, rfl⟩ := Prod.mk.inj (Option.some.inj h_call)
    obtain ⟨h_known, h_rows⟩ := h_where (fun r => r.userId = rec.userId) _ rec h_get h_fam
    exact ⟨h_known, h_rows fun r _ hp => decide_eq_true (congrArg RefreshParams.userId hp)⟩
  | revokeForClient clientId =>
    obtain ⟨rec, h_mem, rfl, h_fam⟩ := h_ends
    obtain ⟨k, h_get⟩ := Table.get?_of_mem_values.mp h_mem
    obtain ⟨rfl, rfl⟩ := Prod.mk.inj (Option.some.inj h_call)
    obtain ⟨h_known, h_rows⟩ := h_where (fun r => r.clientId = rec.clientId) _ rec h_get h_fam
    exact ⟨h_known, h_rows fun r _ hp => decide_eq_true (congrArg RefreshParams.clientId hp)⟩

/-! ### Along a run -/

/-- A token issued anywhere in the trace is of its family in the last state. -/
theorem IssuedIn.inFamily {tr : List (RefreshOp × RefreshEvent)} {s : RefreshState}
    {familyId token : String} (h : (refreshMachine digest).Run tr s)
    (h_iss : IssuedIn tr familyId token) : InFamily (digest token) familyId s := by
  obtain ⟨⟨op, e⟩, h_mem, h_mint⟩ := h_iss
  obtain ⟨pre, post, rfl⟩ := List.append_of_mem h_mem
  obtain ⟨m, m', h_pre, -, h_step, -, h_post⟩ := h.split_step
  have h_fam := (mintedBy_step (RefreshInv.of_run h_pre) h_step h_mint).1
  exact h_post.stable (fun _ _ _ _ hF _ hs => hF.step hs) h_fam

/-- Nothing is issued in a dead family. -/
theorem Dead.not_issuedIn {m s : RefreshState} {post : List (RefreshOp × RefreshEvent)}
    {familyId token : String} (hI : RefreshInv m) (hD : Dead familyId m)
    (h : (refreshMachine digest).Steps (fun _ _ => True) m post s) :
    ¬ IssuedIn post familyId token := by
  induction h with
  | nil => rintro ⟨x, h_mem, -⟩; exact absurd h_mem (by simp)
  | @snoc s₁ s₂ tr op e h_steps _ hs ih =>
    rintro ⟨x, h_mem, h_mint⟩
    rcases List.mem_append.mp h_mem with h_mem | h_mem
    · exact ih ⟨x, h_mem, h_mint⟩
    · obtain rfl : x = (op, e) := by simpa using h_mem
      have hI₁ : RefreshInv s₁ := h_steps.stable (fun _ _ _ _ hI _ hs => hI.step hs) hI
      have hD₁ : Dead familyId s₁ := h_steps.stable (fun _ _ _ _ hD _ hs => hD.step hs) hD
      exact (mintedBy_step hI₁ hs h_mint).2 hD₁

/-- **A token value is rotated at most once.** -/
theorem rotated_once {pre post : List (RefreshOp × RefreshEvent)} {x : RefreshOp × RefreshEvent}
    {s : RefreshState} {token next next' : String} {grant grant' : RefreshGrant}
    (h : (refreshMachine digest).Run (pre ++ x :: post) s)
    (h_rot : rotatedBy x = some (token, grant, next)) {y : RefreshOp × RefreshEvent}
    (h_mem : y ∈ post) : rotatedBy y ≠ some (token, grant', next') := by
  intro h_rot'
  obtain ⟨op, e⟩ := x
  obtain ⟨op', e'⟩ := y
  obtain ⟨post₁, post₂, rfl⟩ := List.append_of_mem h_mem
  rw [← List.cons_append, ← List.append_assoc] at h
  obtain ⟨m₁, m₁', h_run₁, -, h_step₁, -, -⟩ := h.split_step
  obtain ⟨m, m', h_run, -, h_step, -, h_steps⟩ := h_run₁.split_step
  obtain ⟨-, -, -, -, h_spent⟩ := rotatedBy_step h_step h_rot
  have h_spent₁ : Spent (digest token) m₁ := h_steps.stable (fun _ _ _ _ hS _ hs => hS.step hs)
    (h_spent (RefreshInv.of_run h_run))
  obtain ⟨rec, h_get, h_unused, -⟩ := rotatedBy_step h_step₁ h_rot'
  exact h_spent₁.2 rec h_get h_unused

/-- **An ended family stays ended**: it has no row, and no token ever issued in it
is rotated again. -/
theorem ended_forever {pre post : List (RefreshOp × RefreshEvent)} {op : RefreshOp}
    {e : RefreshEvent} {m m' s : RefreshState} {familyId : String}
    (h : (refreshMachine digest).Run (pre ++ (op, e) :: post) s)
    (h_pre : (refreshMachine digest).Run pre m)
    (h_call : (refreshMachine digest).Run (pre ++ [(op, e)]) m')
    (h_ends : Ends digest m familyId op) :
    (∀ rec ∈ m'.store.tokens.values, rec.familyId ≠ familyId) ∧
      ∀ y ∈ post, ∀ token grant next, rotatedBy y = some (token, grant, next) →
        grant.familyId ≠ familyId ∧ ¬ IssuedIn (pre ++ (op, e) :: post) familyId token := by
  obtain ⟨m₁, m₁', h_run, -, h_step, h_run', h_steps⟩ := h.split_step
  obtain rfl : m = m₁ := h_pre.state_unique h_run
  obtain rfl : m' = m₁' := h_call.state_unique h_run'
  have hD : Dead familyId m' := h_ends.dead (RefreshInv.of_run h_pre) h_step
  refine ⟨fun rec h_mem => ?_, fun y h_mem token grant next h_rot => ?_⟩
  · obtain ⟨k, h_get⟩ := Table.get?_of_mem_values.mp h_mem
    exact hD.2 k rec h_get
  · obtain ⟨op', e'⟩ := y
    obtain ⟨post₁, post₂, rfl⟩ := List.append_of_mem h_mem
    have h_cut : (refreshMachine digest).Run
        ((pre ++ (op, e) :: post₁) ++ (op', e') :: post₂) s := by simpa using h
    obtain ⟨m₂, m₂', h_run₂, -, h_step₂, -, -⟩ := h_cut.split_step
    obtain ⟨m₃, m₃', -, -, -, h_run₃, h_steps₂⟩ := h_run₂.split_step
    obtain rfl : m' = m₃' := h_call.state_unique h_run₃
    have hD₂ : Dead familyId m₂ := h_steps₂.stable (fun _ _ _ _ hD _ hs => hD.step hs) hD
    obtain ⟨rec, h_get, -, rfl, -⟩ := rotatedBy_step h_step₂ h_rot
    have h_other : rec.grant.familyId ≠ familyId := hD₂.2 _ rec h_get
    refine ⟨h_other, fun h_iss => ?_⟩
    -- the token was not issued after the family died, so it was issued before `m₂`
    have h_before : IssuedIn (pre ++ [(op, e)]) familyId token := by
      obtain ⟨x, hx, h_mint⟩ := h_iss
      rw [List.append_cons] at hx
      rcases List.mem_append.mp hx with hx | hx
      · exact ⟨x, hx, h_mint⟩
      · exact absurd ⟨x, hx, h_mint⟩ (hD.not_issuedIn (RefreshInv.of_run h_call) h_steps)
    have h_fam : InFamily (digest token) familyId m₂ :=
      h_steps₂.stable (fun _ _ _ _ hF _ hs => hF.step hs) (h_before.inFamily h_call)
    exact h_other (h_fam.2 rec h_get)

/-- The rotation guarantees of a trace that leads to `s`. -/
structure RotationSafe (digest : String → String) (tr : List (RefreshOp × RefreshEvent))
    (s : RefreshState) : Prop where
  /-- A family has at most one unspent row, and its rows carry one grant. -/
  coherent : FamiliesCoherent s.store
  /-- A token value is successfully rotated at most once. -/
  once : ∀ pre x post token grant next, tr = pre ++ x :: post →
    rotatedBy x = some (token, grant, next) →
    ∀ y ∈ post, ∀ grant' next', rotatedBy y ≠ some (token, grant', next')
  /-- Presenting a spent token and every revocation leave no row of the family,
  and no token ever issued in it is rotated afterwards. -/
  ended : ∀ pre op e post m m' familyId, tr = pre ++ (op, e) :: post →
    (refreshMachine digest).Run pre m → (refreshMachine digest).Run (pre ++ [(op, e)]) m' →
    Ends digest m familyId op →
    (∀ rec ∈ m'.store.tokens.values, rec.familyId ≠ familyId) ∧
      ∀ y ∈ post, ∀ token grant next, rotatedBy y = some (token, grant, next) →
        grant.familyId ≠ familyId ∧ ¬ IssuedIn tr familyId token

/-- **Safety of rotation**: the guarantees hold of every run, whatever the digest. -/
theorem rotation_safe {tr : List (RefreshOp × RefreshEvent)} {s : RefreshState}
    (h : (refreshMachine digest).Run tr s) : RotationSafe digest tr s where
  coherent := (RefreshInv.of_run h).coherent
  once := by
    rintro pre x post token grant next rfl h_rot y h_mem grant' next'
    exact rotated_once h h_rot h_mem
  ended := by
    rintro pre op e post m m' familyId rfl h_pre h_call h_ends
    exact ended_forever h h_pre h_call h_ends

/-- A chain of one rotation, whose spent token is then presented again. -/
def replayOps : List RefreshOp :=
  [.issue ⟨"ann", "tv", "openid offline_access"⟩ "f" "t0" 0 0,
    .rotate "t0" "t1" 5 5 5 5, .rotate "t0" "t2" 9 9 9 9, .rotate "t1" "t3" 9 9 9 9]

theorem rotation_safe_replay : ∃ tr s, (refreshMachine id).exec .initial replayOps = some (tr, s) ∧
    RotationSafe id tr s :=
  ⟨_, _, rfl, rotation_safe (Machine.run_of_exec replayOps rfl)⟩

end ServerCentral.Oidc
