import ServerCentral.Oidc.RefreshSafety
import Mathlib.Data.List.Induction

/-!
# The list of connected apps

`listForUser` gives the Users screen one row for each family of refresh tokens of a user. It
picks the newest unspent row of each family and looks at no clock, while `rotate` also asks
whether the token has expired, and rows that have expired stay in memory until the next start.

`storedRefreshMachine` adds the file to `refreshMachine`: the process may end at any time and
start again from the rows of an earlier moment. `connected_apps_iff` says when the list shows
the families that can still be used.
-/

open Framework

namespace ServerCentral.Oidc

/-- A row of the list. -/
structure ConnectedApp where
  familyId : String
  clientId : String
  scope : String
  issuedAt : ℕ
  expiresAt : ℕ
  deriving DecidableEq, Repr

namespace RefreshTokenStore

/-- The rows the list looks at. -/
def HeldBy (userId : String) (rec : RefreshRecord) : Prop := rec.userId = userId ∧ rec.usedAt = none

instance (userId : String) (rec : RefreshRecord) : Decidable (HeldBy userId rec) :=
  inferInstanceAs (Decidable (_ ∧ _))

/-- One row of the loop: the newest link of each family stays. -/
def pickNewest (userId : String) (byFamily : Table String RefreshRecord) (rec : RefreshRecord) :
    Table String RefreshRecord :=
  if ¬ HeldBy userId rec then byFamily
  else if (byFamily.get? rec.familyId).all fun seen => decide (seen.issuedAt < rec.issuedAt) then
    byFamily.set rec.familyId rec
  else byFamily

def listForUser (s : RefreshTokenStore) (userId : String) : List ConnectedApp :=
  let byFamily := s.tokens.values.foldl (pickNewest userId) .empty
  (byFamily.entries.map fun (familyId, rec) =>
    ConnectedApp.mk familyId rec.clientId rec.scope rec.issuedAt rec.expiresAt).mergeSort
      fun a b => decide (b.issuedAt ≤ a.issuedAt)

/-- `rotate` accepts the token at the time, for the grant. -/
def Accepts (digest : String → String) (s : RefreshTokenStore) (now : ℕ) (token : String)
    (grant : RefreshGrant) : Prop :=
  ∀ next, (s.rotate digest token next now now now now).result = .rotated grant next

end RefreshTokenStore

/-- The list shows the families with a token that is accepted, each once, with the data of its
one accepted token. -/
structure ListsLive (digest : String → String) (s : RefreshTokenStore) (userId : String) (now : ℕ) :
    Prop where
  families : ∀ familyId, familyId ∈ (s.listForUser userId).map ConnectedApp.familyId ↔
    ∃ token grant, s.Accepts digest now token grant ∧ grant.familyId = familyId ∧
      grant.userId = userId
  once : ((s.listForUser userId).map ConnectedApp.familyId).Nodup
  current : ∀ app ∈ s.listForUser userId, ∃ token rec, s.tokens.get? (digest token) = some rec ∧
    s.Accepts digest now token rec.grant ∧ rec.familyId = app.familyId ∧ rec.userId = userId ∧
    app.clientId = rec.clientId ∧ app.scope = rec.scope ∧ app.expiresAt = rec.expiresAt ∧
    ∀ token' grant', s.Accepts digest now token' grant' → grant'.familyId = app.familyId →
      digest token' = digest token

/-- No unspent token of the user has expired. -/
def NoneExpired (s : RefreshTokenStore) (userId : String) (now : ℕ) : Prop :=
  ∀ k rec, s.tokens.get? k = some rec → rec.userId = userId → rec.usedAt = none →
    now ≤ rec.expiresAt

/-! ### The file -/

/-- The store in memory, and the rows of each moment so far, one of which the file holds. -/
structure StoredRefresh where
  live : RefreshState
  snapshots : List RefreshTokenStore

/-- A call, or a start that reads the rows of the `i`-th moment. -/
inductive StoredLabel where
  | call (op : RefreshOp)
  | init (i now : ℕ)
  deriving DecidableEq, Repr

namespace StoredRefresh

/-- An empty store, without a file. -/
def initial : StoredRefresh := ⟨.initial, [⟨.empty⟩]⟩

def step (digest : String → String) (s : StoredRefresh) :
    StoredLabel → Option (StoredRefresh × Option RefreshEvent)
  | .call op => ((refreshMachine digest).step s.live op).map fun (live, e) =>
    (⟨live, s.snapshots ++ [live.store]⟩, some e)
  | .init i now =>
    if now < s.live.clock then none
    else (s.snapshots[i]?).map fun rows =>
      let store := (rows.pruneExpired now).store
      (⟨{ s.live with store, clock := now, persisting := [] }, s.snapshots ++ [store]⟩, none)

end StoredRefresh

/-- **The refresh-token store over several starts.** -/
def storedRefreshMachine (digest : String → String) :
    Machine StoredRefresh StoredLabel (Option RefreshEvent) where
  init := .initial
  step := StoredRefresh.step digest

/-! ### The invariant -/

variable {digest : String → String}

/-- The rows in memory and those of each moment are coherent, and sit under digests. -/
structure StoredInv (digest : String → String) (s : StoredRefresh) : Prop where
  live : RefreshInv s.live
  snapshots : ∀ rows ∈ s.snapshots, RefreshInv { s.live with store := rows }
  digests : ∀ k ∈ s.live.minted, ∃ token, digest token = k

theorem RefreshInv.rows {s s' : RefreshState} (hI : RefreshInv s) (h_minted : s.minted ⊆ s'.minted)
    (h_families : s.families ⊆ s'.families) :
    RefreshInv { s' with store := s.store } where
  minted := fun k r h => h_minted (hI.minted k r h)
  family := fun k r h => h_families (hI.family k r h)
  coherent := hI.coherent

/-- What is minted is a digest. -/
theorem minted_digest {s s' : RefreshState} {op : RefreshOp} {e : RefreshEvent}
    (h : (refreshMachine digest).step s op = some (s', e)) :
    ∀ k ∈ s'.minted, k ∈ s.minted ∨ ∃ token, digest token = k := by
  obtain ⟨-, h_call⟩ := step_eq h
  cases op with
  | issue params familyId token cutoffAt issuedAt =>
    obtain ⟨rfl, -⟩ := Prod.mk.inj (Option.some.inj h_call)
    intro k h_k
    obtain rfl | h_k := List.mem_cons.mp h_k
    · exact .inr ⟨token, rfl⟩
    · exact .inl h_k
  | rotate token next checkedAt usedAt cutoffAt issuedAt =>
    obtain ⟨rfl, -⟩ := Prod.mk.inj (Option.some.inj h_call)
    intro k h_k
    obtain ⟨h_res | h_res, -⟩ | ⟨rec, -, -, h_res, -⟩ := RefreshTokenStore.rotate_cases digest
      s.store token next checkedAt usedAt cutoffAt issuedAt
    · simp only [h_res] at h_k
      exact .inl h_k
    · simp only [h_res] at h_k
      exact .inl h_k
    · simp only [h_res] at h_k
      obtain rfl | h_k := List.mem_cons.mp h_k
      · exact .inr ⟨next, rfl⟩
      · exact .inl h_k
  | revoke token =>
    obtain ⟨rfl, -⟩ := Prod.mk.inj (Option.some.inj h_call)
    exact fun k h_k => .inl h_k
  | revokeFamily id =>
    obtain ⟨rfl, -⟩ := Prod.mk.inj (Option.some.inj h_call)
    exact fun k h_k => .inl h_k
  | revokeForUser id =>
    obtain ⟨rfl, -⟩ := Prod.mk.inj (Option.some.inj h_call)
    exact fun k h_k => .inl h_k
  | revokeForClient id =>
    obtain ⟨rfl, -⟩ := Prod.mk.inj (Option.some.inj h_call)
    exact fun k h_k => .inl h_k
  | pruneExpired now =>
    obtain ⟨rfl, -⟩ := Prod.mk.inj (Option.some.inj h_call)
    exact fun k h_k => .inl h_k
  | written i =>
    obtain ⟨result, -, h_eq⟩ := Option.map_eq_some_iff.mp h_call
    obtain ⟨rfl, -⟩ := Prod.mk.inj h_eq
    exact fun k h_k => .inl h_k

theorem StoredInv.initial : StoredInv digest .initial where
  live := .initial
  snapshots := by
    intro rows h_rows
    rw [List.mem_singleton.mp h_rows]
    exact .initial
  digests := fun k h_k => absurd h_k List.not_mem_nil

theorem StoredInv.step {s s' : StoredRefresh} {l : StoredLabel} {o : Option RefreshEvent}
    (hI : StoredInv digest s) (h : (storedRefreshMachine digest).step s l = some (s', o)) :
    StoredInv digest s' := by
  cases l with
  | call op =>
    obtain ⟨⟨live, e⟩, h_step, h_eq⟩ := Option.map_eq_some_iff.mp h
    obtain ⟨rfl, -⟩ := Prod.mk.inj h_eq
    obtain ⟨h_minted, h_families, -⟩ := step_shape h_step
    have h_live := hI.live.step h_step
    constructor
    case live => exact h_live
    case snapshots =>
      intro rows h_rows
      obtain h_rows | h_rows := List.mem_append.mp h_rows
      · exact (hI.snapshots rows h_rows).rows h_minted h_families
      · rw [List.mem_singleton.mp h_rows]
        exact h_live
    case digests =>
      intro k h_k
      obtain h_k | h_token := minted_digest h_step k h_k
      · exact hI.digests k h_k
      · exact h_token
  | init i now =>
    have h_init : (if now < s.live.clock then none
      else (s.snapshots[i]?).map fun rows =>
        (⟨{ s.live with store := (rows.pruneExpired now).store, clock := now, persisting := [] },
          s.snapshots ++ [(rows.pruneExpired now).store]⟩, none)) = some (s', o) := h
    split at h_init
    · exact absurd h_init (by simp)
    obtain ⟨rows, h_get, h_eq⟩ := Option.map_eq_some_iff.mp h_init
    obtain ⟨rfl, -⟩ := Prod.mk.inj h_eq
    have h_rows := hI.snapshots rows (List.mem_of_getElem? h_get)
    -- the rows of the earlier moment, less the pruned ones
    have h_pruned : ∀ k r, (rows.pruneExpired now).store.tokens.get? k = some r →
        rows.tokens.get? k = some r := fun k r h_r => (RefreshTokenStore.get?_revokeWhere.mp h_r).1
    have h_live : RefreshInv { s.live with store := (rows.pruneExpired now).store } :=
      ⟨fun k r h => h_rows.minted k r (h_pruned k r h),
        fun k r h => h_rows.family k r (h_pruned k r h),
        fun k k' r r' h h' => h_rows.coherent.params_eq k k' r r' (h_pruned k r h) (h_pruned k' r' h'),
        fun k k' r r' h h' =>
          h_rows.coherent.unused_unique k k' r r' (h_pruned k r h) (h_pruned k' r' h')⟩
    constructor
    case live => exact ⟨h_live.minted, h_live.family, h_live.coherent⟩
    case snapshots =>
      intro rows' h_rows'
      obtain h_rows' | h_rows' := List.mem_append.mp h_rows'
      · have h_old := hI.snapshots rows' h_rows'
        exact ⟨h_old.minted, h_old.family, h_old.coherent⟩
      · rw [List.mem_singleton.mp h_rows']
        exact ⟨h_live.minted, h_live.family, h_live.coherent⟩
    case digests => exact hI.digests

theorem storedInv_run {tr : List (StoredLabel × Option RefreshEvent)} {s : StoredRefresh}
    (h : (storedRefreshMachine digest).Run tr s) : StoredInv digest s :=
  h.invariant .initial fun _ _ _ _ hI _ hs => hI.step hs

/-! ### The list -/

namespace RefreshTokenStore

section Picking

variable {userId : String} {recs : List RefreshRecord} {rec : RefreshRecord}

theorem foldl_pickNewest_concat (userId : String) (recs : List RefreshRecord) (rec : RefreshRecord) :
    (recs ++ [rec]).foldl (pickNewest userId) .empty =
      pickNewest userId (recs.foldl (pickNewest userId) .empty) rec := by
  rw [List.foldl_append]
  rfl

/-- What is picked for a family is one of its rows. -/
theorem of_picked {familyId : String}
    (h : (recs.foldl (pickNewest userId) .empty).get? familyId = some rec) :
    rec ∈ recs ∧ HeldBy userId rec ∧ rec.familyId = familyId := by
  induction recs using List.reverseRecOn with
  | nil => exact absurd h (by simp)
  | append_singleton recs last ih =>
    have h_old : ∀ {byFamily}, byFamily = recs.foldl (pickNewest userId) .empty →
        byFamily.get? familyId = some rec → rec ∈ recs ++ [last] ∧ HeldBy userId rec ∧
          rec.familyId = familyId := by
      rintro _ rfl h_get
      obtain ⟨h_mem, h_rest⟩ := ih h_get
      exact ⟨List.mem_append_left _ h_mem, h_rest⟩
    rw [foldl_pickNewest_concat, pickNewest] at h
    split at h
    · exact h_old rfl h
    next h_held =>
      split at h
      · obtain ⟨rfl, rfl⟩ | ⟨-, h⟩ := Table.get?_set_eq_some h
        · exact ⟨List.mem_append_right _ (List.mem_singleton_self _), not_not.mp h_held, rfl⟩
        · exact h_old rfl h
      · exact h_old rfl h

/-- A family with a row that is held has one that is picked. -/
theorem exists_picked (h_mem : rec ∈ recs) (h_held : HeldBy userId rec) :
    ∃ newest, (recs.foldl (pickNewest userId) .empty).get? rec.familyId = some newest := by
  induction recs using List.reverseRecOn with
  | nil => exact absurd h_mem List.not_mem_nil
  | append_singleton recs last ih =>
    rw [foldl_pickNewest_concat, pickNewest]
    obtain h_mem | h_mem := List.mem_append.mp h_mem
    · obtain ⟨newest, h_get⟩ := ih h_mem
      split
      · exact ⟨newest, h_get⟩
      split
      · by_cases h_family : rec.familyId = last.familyId
        · exact ⟨last, by rw [h_family, Table.get?_set_self]⟩
        · exact ⟨newest, by rw [Table.get?_set_of_ne _ _ h_family, h_get]⟩
      · exact ⟨newest, h_get⟩
    · obtain rfl := List.mem_singleton.mp h_mem
      rw [if_neg (not_not.mpr h_held)]
      split
      · exact ⟨rec, Table.get?_set_self _ _ _⟩
      next h_seen =>
        -- the row is not taken, since one of its family is there already
        cases h_get : (recs.foldl (pickNewest userId) .empty).get? rec.familyId with
        | none =>
          rw [h_get] at h_seen
          exact absurd rfl h_seen
        | some newest => exact ⟨newest, rfl⟩

end Picking

variable {s : RefreshTokenStore} {userId : String} {now : ℕ}

theorem mem_listForUser {app : ConnectedApp} :
    app ∈ s.listForUser userId ↔
      ∃ familyId rec, (s.tokens.values.foldl (pickNewest userId) .empty).get? familyId = some rec ∧
        app = ⟨familyId, rec.clientId, rec.scope, rec.issuedAt, rec.expiresAt⟩ := by
  rw [listForUser]
  dsimp only
  rw [List.mem_mergeSort, List.mem_map]
  constructor
  · rintro ⟨⟨familyId, rec⟩, h_mem, rfl⟩
    exact ⟨familyId, rec, Table.get?_eq_some_iff.mpr h_mem, rfl⟩
  · rintro ⟨familyId, rec, h_get, rfl⟩
    exact ⟨(familyId, rec), Table.get?_eq_some_iff.mp h_get, rfl⟩

/-- Each family is listed once. -/
theorem nodup_listForUser (s : RefreshTokenStore) (userId : String) :
    ((s.listForUser userId).map ConnectedApp.familyId).Nodup := by
  rw [listForUser]
  dsimp only
  refine ((List.mergeSort_perm _ _).map _).nodup_iff.mpr ?_
  rw [List.map_map]
  exact (s.tokens.values.foldl (pickNewest userId) .empty).nodup

theorem accepts_iff {token : String} {grant : RefreshGrant} :
    s.Accepts digest now token grant ↔
      ∃ rec, s.tokens.get? (digest token) = some rec ∧ rec.usedAt = none ∧ now ≤ rec.expiresAt ∧
        grant = rec.grant := by
  rw [Accepts]
  cases h_get : s.tokens.get? (digest token) with
  | none =>
    constructor
    · intro h
      have h_next := h token
      rw [rotate, h_get] at h_next
      exact absurd h_next (by simp)
    · rintro ⟨rec, h_rec, -⟩
      exact absurd h_rec (by simp)
  | some rec =>
    constructor
    · intro h
      have h_next := h token
      rw [rotate, h_get] at h_next
      dsimp only at h_next
      split at h_next
      · exact absurd h_next (by simp)
      next h_unused =>
        split at h_next
        · exact absurd h_next (by simp)
        next h_live =>
          obtain ⟨rfl, -⟩ := RotateOutcome.rotated.inj h_next
          exact ⟨rec, rfl, by simpa using h_unused, by omega, rfl⟩
    · rintro ⟨rec', h_rec, h_unused, h_live, rfl⟩ next
      obtain rfl := Option.some.inj h_rec
      rw [rotate, h_get]
      dsimp only
      rw [if_neg (by simp [h_unused]), if_neg (by omega)]

end RefreshTokenStore

/-! ### The theorem -/

open RefreshTokenStore in
/-- **Connected apps.** In every state the store can reach over any number of starts, the list
of a user shows what can be used at a time exactly if none of the user's unspent tokens has
expired by then. -/
theorem connected_apps_iff {tr : List (StoredLabel × Option RefreshEvent)} {s : StoredRefresh}
    (h : (storedRefreshMachine digest).Run tr s) (userId : String) (now : ℕ) :
    ListsLive digest s.live.store userId now ↔ NoneExpired s.live.store userId now := by
  have hI := storedInv_run h
  have h_value : ∀ {rec}, rec ∈ s.live.store.tokens.values ↔
      ∃ k, s.live.store.tokens.get? k = some rec := Table.get?_of_mem_values
  constructor
  · -- a listed family has an accepted token, which is its one unspent token
    intro h_list k rec h_rec h_user h_unused
    have h_held : HeldBy userId rec := ⟨h_user, h_unused⟩
    obtain ⟨newest, h_picked⟩ := exists_picked (h_value.mpr ⟨k, h_rec⟩) h_held
    have h_listed : rec.familyId ∈ (s.live.store.listForUser userId).map ConnectedApp.familyId :=
      List.mem_map.mpr ⟨_, mem_listForUser.mpr ⟨_, _, h_picked, rfl⟩, rfl⟩
    obtain ⟨token, grant, h_accepts, h_family, -⟩ := (h_list.families _).mp h_listed
    obtain ⟨rec', h_rec', h_unused', h_live, rfl⟩ := accepts_iff.mp h_accepts
    obtain rfl := hI.live.coherent.unused_unique k (digest token) rec rec' h_rec h_rec'
      h_family.symm h_unused h_unused'
    rwa [Option.some.inj (h_rec.symm.trans h_rec')]
  · intro h_fresh
    have h_entry : ∀ familyId rec, (s.live.store.tokens.values.foldl (pickNewest userId)
        .empty).get? familyId = some rec → rec.userId = userId ∧ rec.familyId = familyId ∧
          ∃ token, s.live.store.tokens.get? (digest token) = some rec ∧
            s.live.store.Accepts digest now token rec.grant := by
      intro familyId rec h_picked
      obtain ⟨h_mem, ⟨h_user, h_unused⟩, h_family⟩ := of_picked h_picked
      obtain ⟨k, h_rec⟩ := h_value.mp h_mem
      obtain ⟨token, rfl⟩ := hI.digests k (hI.live.minted k rec h_rec)
      exact ⟨h_user, h_family, token, h_rec, accepts_iff.mpr
        ⟨rec, h_rec, h_unused, h_fresh _ rec h_rec h_user h_unused, rfl⟩⟩
    constructor
    case families =>
      intro familyId
      constructor
      · intro h_listed
        obtain ⟨app, h_app, rfl⟩ := List.mem_map.mp h_listed
        obtain ⟨familyId, rec, h_picked, rfl⟩ := mem_listForUser.mp h_app
        obtain ⟨h_user, h_family, token, -, h_accepts⟩ := h_entry familyId rec h_picked
        exact ⟨token, rec.grant, h_accepts, h_family, h_user⟩
      · rintro ⟨token, grant, h_accepts, rfl, rfl⟩
        obtain ⟨rec, h_rec, h_unused, -, rfl⟩ := accepts_iff.mp h_accepts
        obtain ⟨newest, h_picked⟩ := exists_picked (h_value.mpr ⟨_, h_rec⟩)
          (show HeldBy rec.userId rec from ⟨rfl, h_unused⟩)
        exact List.mem_map.mpr ⟨_, mem_listForUser.mpr ⟨_, _, h_picked, rfl⟩, rfl⟩
    case once => exact nodup_listForUser _ userId
    case current =>
      intro app h_app
      obtain ⟨familyId, rec, h_picked, rfl⟩ := mem_listForUser.mp h_app
      obtain ⟨h_user, h_family, token, h_rec, h_accepts⟩ := h_entry familyId rec h_picked
      refine ⟨token, rec, h_rec, h_accepts, h_family, h_user, rfl, rfl, rfl, ?_⟩
      intro token' grant' h_accepts' h_family'
      obtain ⟨rec', h_rec', h_unused', -, rfl⟩ := accepts_iff.mp h_accepts'
      obtain ⟨rec₀, h_rec₀, h_unused₀, -, -⟩ := accepts_iff.mp h_accepts
      obtain rfl := Option.some.inj (h_rec.symm.trans h_rec₀)
      exact hI.live.coherent.unused_unique _ _ rec' rec h_rec' h_rec (h_family'.trans h_family.symm)
        h_unused' h_unused₀

/-- A store with one row. -/
theorem listForUser_single {s : RefreshTokenStore} {userId k : String} {rec : RefreshRecord}
    (h : s.tokens.entries = [(k, rec)]) (h_held : RefreshTokenStore.HeldBy userId rec) :
    s.listForUser userId =
      [⟨rec.familyId, rec.clientId, rec.scope, rec.issuedAt, rec.expiresAt⟩] := by
  have h_picked : RefreshTokenStore.pickNewest userId .empty rec = .set .empty rec.familyId rec := by
    rw [RefreshTokenStore.pickNewest, if_neg (not_not.mpr h_held)]
    rfl
  rw [RefreshTokenStore.listForUser, Table.values, h, List.map_singleton, List.foldl_cons,
    List.foldl_nil, h_picked]
  exact List.mergeSort_singleton _

/-- One token, issued at the start. -/
def issuedLabels : List StoredLabel :=
  [.call (.issue ⟨"u1", "tv", "openid"⟩ "f1" "t1" 0 0)]

/-- The list on the day the token is issued. -/
theorem connected_apps_iff_sample : ∃ tr s, (storedRefreshMachine id).Run tr s ∧
    ListsLive id s.live.store "u1" 1000 ∧
    (s.live.store.listForUser "u1").map ConnectedApp.familyId = ["f1"] := by
  obtain ⟨tr, s, h_exec, h_values⟩ := Machine.exec_reads (storedRefreshMachine id) .initial
    issuedLabels (fun s => s.live.store.tokens.entries)
    [("t1", ⟨"f1", "u1", "tv", "openid", 0, refreshTtlMs, none⟩)] (by decide +kernel)
  have h_run := Machine.run_of_exec _ h_exec
  refine ⟨tr, s, h_run, (connected_apps_iff h_run "u1" 1000).mpr ?_, ?_⟩
  · intro k rec h_rec _ _
    have h_mem := Table.get?_eq_some_iff.mp h_rec
    rw [h_values] at h_mem
    obtain ⟨-, rfl⟩ := Prod.mk.inj (List.mem_singleton.mp h_mem)
    decide
  · rw [listForUser_single h_values ⟨rfl, rfl⟩]
    rfl

/-- Sixty days and a millisecond later the family is still listed, and no token of the store is
accepted. -/
theorem expired_listed : ∃ tr s, (storedRefreshMachine id).Run tr s ∧
    (s.live.store.listForUser "u1").map ConnectedApp.familyId = ["f1"] ∧
    (∀ token grant, ¬ s.live.store.Accepts id (refreshTtlMs + 1) token grant) ∧
    ¬ ListsLive id s.live.store "u1" (refreshTtlMs + 1) := by
  obtain ⟨tr, s, h_exec, h_values⟩ := Machine.exec_reads (storedRefreshMachine id) .initial
    issuedLabels (fun s => s.live.store.tokens.entries)
    [("t1", ⟨"f1", "u1", "tv", "openid", 0, refreshTtlMs, none⟩)] (by decide +kernel)
  have h_listed : (s.live.store.listForUser "u1").map ConnectedApp.familyId = ["f1"] := by
    rw [listForUser_single h_values ⟨rfl, rfl⟩]
    rfl
  have h_refused : ∀ token grant, ¬ s.live.store.Accepts id (refreshTtlMs + 1) token grant := by
    intro token grant h_accepts
    obtain ⟨rec, h_rec, -, h_live, -⟩ := RefreshTokenStore.accepts_iff.mp h_accepts
    have h_mem := Table.get?_eq_some_iff.mp h_rec
    rw [h_values] at h_mem
    obtain ⟨-, rfl⟩ := Prod.mk.inj (List.mem_singleton.mp h_mem)
    exact absurd h_live (by decide)
  refine ⟨tr, s, Machine.run_of_exec _ h_exec, h_listed, h_refused, fun h_list => ?_⟩
  obtain ⟨token, grant, h_accepts, -⟩ := (h_list.families "f1").mp (h_listed ▸ List.mem_singleton_self _)
  exact h_refused token grant h_accepts

end ServerCentral.Oidc
