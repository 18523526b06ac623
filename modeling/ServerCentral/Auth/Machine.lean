import ServerCentral.Framework.Machine
import ServerCentral.Auth.Store

/-!
# The account store under concurrent calls

A call of a method runs its first segment; a suspended call is a task, and a step
`resume` runs the segment after its await. Between two segments of one call any
other call may take a step, which is every interleaving at the awaits.

A step reports the files it starts to write (`AuthOut.writes`). When a write is done
is left open: a task that awaits one may resume at any time, also with an error.
-/

open Framework

namespace ServerCentral.Auth

/-- A method call with the values its first segment takes from the random source and
the clock. -/
inductive AuthOp where
  | setupOwner (id username password : String) (ip userAgent : Option String)
  | addUser (id username password : String) (roleIds : List String) (email : Option String)
  | deleteUser (userId callerId : String)
  | setUserRoles (userId : String) (roleIds : List String)
  | setPermissions (userId : String) (permissions : List String)
  | setSystemUser (userId : String) (systemUser : Option String)
  | setEmail (userId : String) (email : Option String)
  | adminSetPassword (userId password : String)
  | login (username password : String) (ip userAgent : Option String) (now : ℕ)
  | logout (token : Option String)
  | revokeSession (userId sessionId : String) (currentToken : Option String)
  | authenticate (token : Option String) (checkedAt seenAt : ℕ)
  deriving DecidableEq, Repr

/-- The values a later segment takes from outside: the message of the awaited promise
when it rejects, the password hash, the drawn token and session id, and the clock. -/
structure Resumption where
  error : Option String
  passwordHash : String
  token : String
  sessionId : String
  now : ℕ
  deriving DecidableEq, Repr

inductive AuthLabel where
  | call (op : AuthOp)
  | resume (task : ℕ) (r : Resumption)
  deriving DecidableEq, Repr

/-- The clock readings of a step, in the order the code takes them. -/
def AuthLabel.readings : AuthLabel → List ℕ
  | .call (.login _ _ _ _ now) => [now]
  | .call (.authenticate _ checkedAt seenAt) => [checkedAt, seenAt]
  | .call _ => []
  | .resume _ r => [r.now]

/-- The random draws of a step. -/
def AuthLabel.draws : AuthLabel → List String
  | .call (.setupOwner id _ _ _ _) => [id]
  | .call (.addUser id _ _ _ _) => [id]
  | .call _ => []
  | .resume _ r => [r.token, r.sessionId]

/-- What a step does outside the store: the task it is a segment of, the files it
starts to write, and how the method goes on. -/
structure AuthOut where
  task : ℕ
  writes : List AuthFile
  next : AuthNext
  deriving DecidableEq, Repr

/-- The store, the suspended calls, the number of calls so far, the last clock reading,
and the draws so far. -/
structure AuthState where
  store : AuthStore
  tasks : Table ℕ AuthTask
  calls : ℕ
  clock : ℕ
  minted : List String

namespace AuthState

variable (env : AuthEnv)

/-- The state after `init` has read the files. The names a plain object inherits are
never drawn, and neither are the keys in use. -/
def loaded (s : AuthStore) : AuthState :=
  ⟨s, .empty, 0, 0, inheritedNames ++ s.users.keys ++ s.sessions.keys⟩

/-- The first segment of a method. -/
def call (s : AuthStore) : AuthOp → Segment
  | .setupOwner id username password ip userAgent =>
    s.setupOwner env id username password ip userAgent
  | .addUser id username password roleIds email => s.addUser env id username password roleIds email
  | .deleteUser userId callerId => s.deleteUser userId callerId
  | .setUserRoles userId roleIds => s.setUserRoles env userId roleIds
  | .setPermissions userId permissions => s.setPermissions userId permissions
  | .setSystemUser userId systemUser => s.setSystemUser userId systemUser
  | .setEmail userId email => s.setEmail env userId email
  | .adminSetPassword userId password => s.adminSetPassword userId password
  | .login username password ip userAgent now => s.login env username password ip userAgent now
  | .logout token => s.logout token
  | .revokeSession userId sessionId currentToken => s.revokeSession userId sessionId currentToken
  | .authenticate token checkedAt seenAt => s.authenticate token checkedAt seenAt

/-- The segment after an await whose promise has been fulfilled. -/
def continuation (s : AuthStore) (r : Resumption) : AuthTask → Segment
  | .hashingAccount kind draft =>
    ⟨s.insertUser draft r.passwordHash r.now, [.users], .await (.savingAccount kind draft.id)⟩
  | .savingAccount (.owner ip userAgent) userId =>
    s.createSession userId r.token r.sessionId ip userAgent r.now
  | .savingAccount .additional userId => ⟨s, [], .return (.account userId)⟩
  | .verifying attempt => s.verified env attempt r.token r.sessionId r.now
  | .openingSession token userId => ⟨s, [], .return (.session token userId)⟩
  | .hashingPassword userId =>
    -- an account deleted in the meantime is no longer in the table that is written
    ⟨{ s with
        users := s.users.modify userId fun rec => { rec with passwordHash := r.passwordHash } },
      [.users], .await (.savingReset userId)⟩
  | .savingReset userId => s.deleteSessionsForUser userId
  | .sweepingSessions userId => ⟨s, [], .await (.notifying userId)⟩
  | .notifying _ => ⟨s, [], .return .done⟩
  | .saving => ⟨s, [], .return .done⟩

/-- The segment after an await. -/
def resumed (s : AuthStore) (r : Resumption) (task : AuthTask) : Segment :=
  match r.error with
  | some message => s.fail message
  | none => continuation env s r task

/-- The clock never runs backwards, and the random source never repeats itself. -/
def Fresh (s : AuthState) (l : AuthLabel) : Prop :=
  (s.clock :: l.readings).Pairwise (· ≤ ·) ∧ ∀ x ∈ l.draws, x ∉ s.minted

instance (s : AuthState) (l : AuthLabel) : Decidable (s.Fresh l) := by
  unfold Fresh
  infer_instance

/-- The segment a label runs, with the number of its task. -/
def segment (s : AuthState) : AuthLabel → Option (ℕ × Segment)
  | .call op => some (s.calls, call env s.store op)
  | .resume task r => (s.tasks.get? task).map fun t => (task, resumed env s.store r t)

/-- The state after a segment of the task `task`. -/
def after (s : AuthState) (l : AuthLabel) (task : ℕ) (seg : Segment) : AuthState where
  store := seg.store
  tasks :=
    match seg.next with
    | .await t => s.tasks.set task t
    | _ => s.tasks.erase task
  calls :=
    match l with
    | .call _ => s.calls + 1
    | .resume _ _ => s.calls
  clock := l.readings.getLastD s.clock
  minted := l.draws ++ s.minted

/-- A task after a segment is an old one of another call, or what the segment awaits. -/
theorem get?_after {s : AuthState} {l : AuthLabel} {t t' : ℕ} {seg : Segment} {task : AuthTask}
    (h : (s.after l t seg).tasks.get? t' = some task) :
    (t' ≠ t ∧ s.tasks.get? t' = some task) ∨ (t' = t ∧ seg.next = .await task) := by
  simp only [after] at h
  split at h
  · next h_next =>
    rcases Table.get?_set_eq_some h with ⟨h_eq, rfl⟩ | ⟨h_ne, h⟩
    · exact .inr ⟨h_eq, h_next⟩
    · exact .inl ⟨h_ne, h⟩
  · exact .inl (Table.get?_erase.mp h).symm

def step (s : AuthState) (l : AuthLabel) : Option (AuthState × AuthOut) :=
  if s.Fresh l then
    (s.segment env l).map fun (task, seg) => (s.after l task seg, ⟨task, seg.writes, seg.next⟩)
  else none

end AuthState

/-- **The account store under every interleaving**, started on the accounts and sessions
read from the files. -/
def authMachine (env : AuthEnv) (s₀ : AuthStore) : Machine AuthState AuthLabel AuthOut where
  init := .loaded s₀
  step s l := s.step env l

end ServerCentral.Auth
