import ServerCentral.Framework.Machine
import ServerCentral.Framework.Table

/-!
# The refresh-token store

`RefreshTokenStore` keeps one row per refresh token, keyed by the digest of the
token. The methods of the class are functions here that return the new store,
whether the call goes on to await `persist`, and the value it resolves to.

Every method changes memory in one synchronous stretch and only then awaits. The
interleavings of concurrent calls at their awaits are therefore the runs of
`refreshMachine`: a call takes effect in one step and stays in `persisting` until
a later `written` step returns its result.

`digest` is the hash of `node:crypto` that turns a token into its key. Nothing is
assumed of it; that minted tokens do not collide is a guard of the machine
(`RefreshState.Fresh`), read at the digests, since two tokens with one digest are
one row.
-/

open Framework

namespace ServerCentral.Oidc

/-- 60 days. -/
def refreshTtlMs : ℕ := 60 * 24 * 60 * 60 * 1000

/-- 7 days: how long a spent row is kept. -/
def spentTtlMs : ℕ := 7 * 24 * 60 * 60 * 1000

/-- One stored row. `usedAt` is set once the token has been exchanged: the row
then survives as a tombstone. -/
structure RefreshRecord where
  familyId : String
  userId : String
  clientId : String
  scope : String
  issuedAt : ℕ
  expiresAt : ℕ
  usedAt : Option ℕ
  deriving DecidableEq, Repr

/-- What a presented token resolved to. -/
structure RefreshGrant where
  familyId : String
  userId : String
  clientId : String
  scope : String
  deriving DecidableEq, Repr

/-- The `params` of `issue` and `append`. -/
structure RefreshParams where
  userId : String
  clientId : String
  scope : String
  deriving DecidableEq, Repr

structure RefreshTokenStore where
  tokens : Table String RefreshRecord

/-- The synchronous stretch of one call: the store it leaves, whether it goes on
to await `persist`, and the value it resolves to. -/
structure RefreshCall (α : Type) where
  store : RefreshTokenStore
  persists : Bool
  result : α

/-- The three answers of `rotate`: `null`, `{ reused: true }`, and the grant with
its replacement token. -/
inductive RotateOutcome where
  | rejected
  | reused
  | rotated (grant : RefreshGrant) (next : String)
  deriving DecidableEq, Repr

namespace RefreshRecord

/-- The grant a row stands for. -/
def grant (rec : RefreshRecord) : RefreshGrant :=
  ⟨rec.familyId, rec.userId, rec.clientId, rec.scope⟩

/-- A `RefreshRecord` passed where `append` expects its `params`. -/
def params (rec : RefreshRecord) : RefreshParams := ⟨rec.userId, rec.clientId, rec.scope⟩

end RefreshRecord

namespace RefreshTokenStore

/-- The loop shared by the bulk revocations: delete the matching rows and persist
when there was one. -/
def revokeWhere (s : RefreshTokenStore) (p : RefreshRecord → Bool) : RefreshCall Unit :=
  ⟨⟨s.tokens.filter fun _ rec => !p rec⟩, s.tokens.values.any p, ()⟩

def revokeFamily (s : RefreshTokenStore) (familyId : String) : RefreshCall Unit :=
  s.revokeWhere fun rec => rec.familyId = familyId

def revokeForUser (s : RefreshTokenStore) (userId : String) : RefreshCall Unit :=
  s.revokeWhere fun rec => rec.userId = userId

def revokeForClient (s : RefreshTokenStore) (clientId : String) : RefreshCall Unit :=
  s.revokeWhere fun rec => rec.clientId = clientId

/-- Drop the rows that were spent more than `spentTtlMs` ago. -/
def dropStaleTombstones (s : RefreshTokenStore) (now : ℕ) : RefreshTokenStore :=
  ⟨s.tokens.filter fun _ rec => !rec.usedAt.any fun t => t < now - spentTtlMs⟩

/-- Drop what has expired and what was spent long ago; run by `init` on the rows
read back from the file. -/
def pruneExpired (s : RefreshTokenStore) (now : ℕ) : RefreshCall Unit :=
  s.revokeWhere fun rec =>
    decide (rec.expiresAt < now) || rec.usedAt.any fun t => t + spentTtlMs < now

variable (digest : String → String)

/-- Store the row of a freshly minted token. The clock is read twice: for the
tombstone cutoff, then for the row. -/
def append (s : RefreshTokenStore) (familyId : String) (params : RefreshParams)
    (token : String) (cutoffAt issuedAt : ℕ) : RefreshTokenStore :=
  ⟨(s.dropStaleTombstones cutoffAt).tokens.set (digest token)
    { familyId, userId := params.userId, clientId := params.clientId, scope := params.scope
      issuedAt, expiresAt := issuedAt + refreshTtlMs, usedAt := none }⟩

/-- Start a rotation chain under a fresh family id. -/
def issue (s : RefreshTokenStore) (params : RefreshParams) (familyId token : String)
    (cutoffAt issuedAt : ℕ) : RefreshCall String :=
  ⟨s.append digest familyId params token cutoffAt issuedAt, true, token⟩

/-- Redeem a token. The clock is read for the expiry check, for `usedAt`, and
twice more by `append`. -/
def rotate (s : RefreshTokenStore) (token next : String)
    (checkedAt usedAt cutoffAt issuedAt : ℕ) : RefreshCall RotateOutcome :=
  match s.tokens.get? (digest token) with
  -- never ours, or spent so long ago that the tombstone is gone
  | none => ⟨s, false, .rejected⟩
  | some rec =>
    if rec.usedAt.isSome then
      let revoked := s.revokeFamily rec.familyId
      ⟨revoked.store, revoked.persists, .reused⟩
    else if rec.expiresAt < checkedAt then
      ⟨⟨s.tokens.erase (digest token)⟩, true, .rejected⟩
    else
      let spent : RefreshTokenStore :=
        ⟨s.tokens.modify (digest token) fun rec => { rec with usedAt := some usedAt }⟩
      ⟨spent.append digest rec.familyId rec.params next cutoffAt issuedAt, true,
        .rotated rec.grant next⟩

/-- Revoke one token by value, and its family with it. -/
def revoke (s : RefreshTokenStore) (token : String) : RefreshCall Bool :=
  match s.tokens.get? (digest token) with
  | none => ⟨s, false, false⟩
  | some rec =>
    let revoked := s.revokeFamily rec.familyId
    ⟨revoked.store, revoked.persists, true⟩

end RefreshTokenStore

/-! ### The store under concurrent calls -/

/-- The value a call resolves to. -/
inductive RefreshResult where
  | issued (familyId token : String)
  | rotated (outcome : RotateOutcome)
  | revoked (found : Bool)
  | done
  deriving DecidableEq, Repr

/-- A call with the values its clock and random draws return, or the completion of
an outstanding `persist`. -/
inductive RefreshOp where
  | issue (params : RefreshParams) (familyId token : String) (cutoffAt issuedAt : ℕ)
  | rotate (token next : String) (checkedAt usedAt cutoffAt issuedAt : ℕ)
  | revoke (token : String)
  | revokeFamily (familyId : String)
  | revokeForUser (userId : String)
  | revokeForClient (clientId : String)
  | pruneExpired (now : ℕ)
  | written (i : ℕ)
  deriving DecidableEq, Repr

/-- The clock readings of a call, in the order the code takes them. -/
def RefreshOp.readings : RefreshOp → List ℕ
  | .issue _ _ _ cutoffAt issuedAt => [cutoffAt, issuedAt]
  | .rotate _ _ checkedAt usedAt cutoffAt issuedAt => [checkedAt, usedAt, cutoffAt, issuedAt]
  | .pruneExpired now => [now]
  | _ => []

/-- What the environment observes of a step: a call that has taken effect, with
the value it will resolve to, or a call that resolves after its `persist`. -/
inductive RefreshEvent where
  | called (result : RefreshResult)
  | returned (result : RefreshResult)
  deriving DecidableEq, Repr

/-- The store, the last clock reading, the calls that await `persist`, and the
digests and family ids the random source has produced so far. -/
structure RefreshState where
  store : RefreshTokenStore
  clock : ℕ
  persisting : List RefreshResult
  minted : List String
  families : List String

namespace RefreshState

/-- An empty store. -/
def initial : RefreshState := ⟨⟨.empty⟩, 0, [], [], []⟩

variable (digest : String → String)

/-- The clock never runs backwards, and the random source never produces a token
or a family id twice. -/
def Fresh (s : RefreshState) (op : RefreshOp) : Prop :=
  (s.clock :: op.readings).Pairwise (· ≤ ·) ∧
    match op with
    | .issue _ familyId token _ _ => digest token ∉ s.minted ∧ familyId ∉ s.families
    | .rotate _ next _ _ _ _ => digest next ∉ s.minted
    | _ => True

instance (s : RefreshState) (op : RefreshOp) : Decidable (s.Fresh digest op) := by
  unfold Fresh
  cases op <;> infer_instance

/-- A call has taken effect: its store is the new store, and its result waits for
`persist` or is returned at once. -/
def commit {α : Type} (s : RefreshState) (op : RefreshOp) (c : RefreshCall α)
    (result : α → RefreshResult) : RefreshState × RefreshEvent :=
  ({ store := c.store
     clock := op.readings.getLastD s.clock
     persisting := if c.persists then s.persisting ++ [result c.result] else s.persisting
     minted := match result c.result with
      | .issued _ token => digest token :: s.minted
      | .rotated (.rotated _ next) => digest next :: s.minted
      | _ => s.minted
     families := match result c.result with
      | .issued familyId _ => familyId :: s.families
      | _ => s.families },
    .called (result c.result))

/-- The step a label stands for. -/
def call (s : RefreshState) (op : RefreshOp) : Option (RefreshState × RefreshEvent) :=
  match op with
  | .issue params familyId token cutoffAt issuedAt =>
    s.commit digest op (s.store.issue digest params familyId token cutoffAt issuedAt)
      (.issued familyId)
  | .rotate token next checkedAt usedAt cutoffAt issuedAt =>
    s.commit digest op (s.store.rotate digest token next checkedAt usedAt cutoffAt issuedAt)
      .rotated
  | .revoke token => s.commit digest op (s.store.revoke digest token) .revoked
  | .revokeFamily familyId => s.commit digest op (s.store.revokeFamily familyId) fun _ => .done
  | .revokeForUser userId => s.commit digest op (s.store.revokeForUser userId) fun _ => .done
  | .revokeForClient clientId =>
    s.commit digest op (s.store.revokeForClient clientId) fun _ => .done
  | .pruneExpired now => s.commit digest op (s.store.pruneExpired now) fun _ => .done
  | .written i => s.persisting[i]?.map fun result =>
    ({ s with persisting := s.persisting.eraseIdx i }, .returned result)

end RefreshState

/-- **The refresh-token store under every interleaving.** -/
def refreshMachine (digest : String → String) :
    Machine RefreshState RefreshOp RefreshEvent where
  init := .initial
  step s op := if s.Fresh digest op then s.call digest op else none

end ServerCentral.Oidc
