import Mathlib.Algebra.GroupWithZero.Nat
import ServerCentral.Framework.Table

/-!
# The account store

`AuthStore` keeps the accounts and the opaque session tokens. Its methods are
`async`: each one is cut here at its awaits into synchronous segments. A segment
returns the new store, the files whose `persist…` it calls, and how the method goes
on: it awaits at one of the positions of `AuthTask`, it returns, or it throws.

`this.users` and `this.sessions` are plain objects, so that reading a key such as
`constructor` finds a property of `Object.prototype`. `Slot` tells the three cases
apart, and `UserDefaults` are the fields that a write through the key `__proto__`
leaves behind on every record without a field of its own.

`AuthEnv` holds what comes from outside the repository or from another store.
-/

open Framework

namespace ServerCentral.Auth

/-- 30 days. -/
def sessionTtlMs : ℕ := 30 * 24 * 60 * 60 * 1000

def maxLoginFailures : ℕ := 10

def loginBlockMs : ℕ := 15 * 60 * 1000

structure UserRecord where
  id : String
  username : String
  passwordHash : String
  isOwner : Bool
  roleIds : Option (List String)
  createdAt : ℕ
  systemUser : Option (Option String)
  extraPermissions : Option (List String)
  email : Option String
  deriving DecidableEq, Repr

structure SessionRecord where
  id : String
  userId : String
  createdAt : ℕ
  lastSeenAt : ℕ
  ip : Option String
  userAgent : Option String
  deriving DecidableEq, Repr

/-- An entry of `loginFailures`. -/
structure LoginFailures where
  count : ℕ
  blockedUntil : ℕ
  deriving DecidableEq, Repr

/-- What a caller sees of an account. -/
structure UserInfo where
  id : String
  username : String
  isOwner : Bool
  roleIds : List String
  createdAt : ℕ
  systemUser : Option String
  email : Option String
  deriving DecidableEq, Repr

/-- The optional fields of a `UserRecord` as `Object.prototype` holds them. -/
structure UserDefaults where
  roleIds : Option (List String)
  systemUser : Option (Option String)
  extraPermissions : Option (List String)
  email : Option String
  deriving DecidableEq, Repr

/-- The password hash function is called with a random salt, so its results come
with the steps; `verify` is `Bun.password.verify`. -/
structure AuthEnv where
  toLowerCase : String → String
  verify : String → String → Bool
  /-- Whether the role store has a role. -/
  roleExists : String → Bool

/-! ### Strings -/

/-- The characters `trim` and `\s` treat as white space. -/
def isSpace (c : Char) : Bool :=
  c.val ∈ [0x09, 0x0a, 0x0b, 0x0c, 0x0d, 0x20, 0xa0, 0x1680, 0x2028, 0x2029, 0x202f, 0x205f,
    0x3000, 0xfeff] || (0x2000 ≤ c.val && c.val ≤ 0x200a)

def trim (s : String) : String :=
  .ofList ((s.toList.dropWhile isSpace).reverse.dropWhile isSpace).reverse

/-- No visible ASCII character is white space. -/
theorem isSpace_visible {c : Char} (h : 0x20 < c.val.toNat) (h' : c.val.toNat < 0x80) :
    isSpace c = false := by
  rw [Bool.eq_false_iff]
  intro h_space
  rw [isSpace, Bool.or_eq_true, decide_eq_true_eq, Bool.and_eq_true, decide_eq_true_eq,
    decide_eq_true_eq, UInt32.le_iff_toNat_le] at h_space
  obtain h_one | ⟨h_from, -⟩ := h_space
  · have h_out := List.all_eq_true.mp
      (by decide : List.all _ fun v : UInt32 => !(decide (0x20 < v.toNat) && v.toNat < 0x80))
        c.val h_one
    rw [decide_eq_true h, decide_eq_true h'] at h_out
    cases h_out
  · have h_wide : (0x2000 : UInt32).toNat = 0x2000 := rfl
    omega

theorem isSpace_digit {c : Char} (h : c.isDigit = true) : isSpace c = false := by
  delta Char.isDigit at h
  rw [Bool.and_eq_true, decide_eq_true_eq, decide_eq_true_eq, ge_iff_le, UInt32.le_iff_toNat_le,
    UInt32.le_iff_toNat_le] at h
  change 48 ≤ c.val.toNat ∧ c.val.toNat ≤ 57 at h
  exact isSpace_visible (by omega) (by omega)

theorem dropWhile_isSpace {l : List Char} (h : ∀ c ∈ l, isSpace c = false) :
    l.dropWhile isSpace = l := by
  cases l with
  | nil => rfl
  | cons c l => rw [List.dropWhile_cons_of_neg (by simp [h c List.mem_cons_self])]

/-- Text without white space stays as it is. -/
theorem dropBlanks_visible {l : List Char} (h : ∀ c ∈ l, isSpace c = false) :
    ((l.dropWhile isSpace).reverse.dropWhile isSpace).reverse = l := by
  rw [dropWhile_isSpace h, dropWhile_isSpace fun c h_c => h c (List.mem_reverse.mp h_c),
    List.reverse_reverse]

theorem trim_visible {value : String} (h : ∀ c ∈ value.toList, isSpace c = false) :
    trim value = value := by
  rw [trim, dropBlanks_visible h, String.ofList_toList]

/-- `length` counts UTF-16 code units. -/
def jsLength (s : String) : ℕ :=
  (s.toList.map fun c => if c.val < 0x10000 then 1 else 2).sum

/-- `/^[^\s@]+@[^\s@]+\.[^\s@]+$/` -/
def emailShape (email : String) : Bool :=
  match email.toList.span (· ≠ '@') with
  | (_, []) => false
  | (name, _ :: domain) =>
    !name.isEmpty && name.all (!isSpace ·) && domain.all (fun c => !isSpace c && c ≠ '@') &&
      (domain.drop 1).dropLast.contains '.'

/-- `/^[a-z][a-z0-9]*(\.[a-z][a-z0-9]*)*(\.\*)?$/i`, or the bare `*`. -/
def isValidPermission (value : String) : Bool :=
  let segments := value.toList.splitOn '.'
  let segmentOk : List Char → Bool
    | [] => false
    | c :: cs => c.isAlpha && cs.all Char.isAlphanum
  value = "*" || segments.all segmentOk ||
    segments.getLast? = some ['*'] && segments.length ≠ 1 && segments.dropLast.all segmentOk

/-- `/^[a-z_][a-z0-9_-]{0,31}\$?$/` -/
def isSystemUsername (name : String) : Bool :=
  match name.toList with
  | [] => false
  | c :: cs =>
    let rest := if cs.getLast? = some '$' then cs.dropLast else cs
    (c.isLower || c = '_') && rest.length ≤ 31 &&
      rest.all fun c => c.isLower || c.isDigit || c = '_' || c = '-'

/-! ### Objects used as dictionaries -/

/-- The names every plain object inherits from `Object.prototype`. -/
def inheritedNames : List String :=
  ["constructor", "__defineGetter__", "__defineSetter__", "hasOwnProperty", "__lookupGetter__",
    "__lookupSetter__", "isPrototypeOf", "propertyIsEnumerable", "toString", "valueOf",
    "__proto__", "toLocaleString"]

/-- What reading a key of a plain object finds. -/
inductive Slot (α : Type) where
  | own (value : α)
  | inherited
  | absent

def lookup {α : Type} (t : Table String α) (key : String) : Slot α :=
  match t.get? key with
  | some value => .own value
  | none => if inheritedNames.contains key then .inherited else .absent

theorem lookup_own {α : Type} {t : Table String α} {key : String} {value : α}
    (h : t.get? key = some value) : lookup t key = .own value := by
  rw [lookup, h]

theorem get?_of_lookup {α : Type} {t : Table String α} {key : String} {value : α}
    (h : lookup t key = .own value) : t.get? key = some value := by
  rw [lookup] at h
  split at h
  · next h_get => rw [h_get, Slot.own.inj h]
  · split at h
    · cases h
    · cases h

theorem inherited_of_lookup {α : Type} {t : Table String α} {key : String}
    (h : lookup t key = .inherited) : key ∈ inheritedNames := by
  rw [lookup] at h
  split at h
  · cases h
  · split at h
    · next h_name => exact List.contains_iff_mem.mp h_name
    · cases h

theorem lookup_inherited {α : Type} {t : Table String α} {key : String}
    (h : t.get? key = none) (h_name : key ∈ inheritedNames) : lookup t key = .inherited := by
  rw [lookup, h]
  simp [h_name]

theorem lookup_absent {α : Type} {t : Table String α} {key : String} (h : t.get? key = none)
    (h_name : key ∉ inheritedNames) : lookup t key = .absent := by
  rw [lookup, h]
  simp [h_name]

/-- `rec.isOwner` of the account a key finds. -/
def Slot.isOwner : Slot UserRecord → Bool
  | .own rec => rec.isOwner
  | _ => false

/-! ### The store -/

structure AuthStore where
  users : Table String UserRecord
  sessions : Table String SessionRecord
  defaults : UserDefaults
  dummyHash : String
  loginFailures : Table String LoginFailures

/-- The two files the store persists. -/
inductive AuthFile where
  | users
  | sessions
  deriving DecidableEq, Repr

/-- Which method called `createUser`. -/
inductive AccountKind where
  | owner (ip userAgent : Option String)
  | additional
  deriving DecidableEq, Repr

/-- The fields of the record that `createUser` has before it awaits the hash. -/
structure AccountDraft where
  id : String
  username : String
  isOwner : Bool
  roleIds : List String
  email : Option String
  deriving DecidableEq, Repr

/-- A login that awaits `verify`, with the account it found and the hash it passed. -/
structure LoginAttempt where
  key : String
  userId : Option String
  password : String
  hash : String
  ip : Option String
  userAgent : Option String
  deriving DecidableEq, Repr

/-- The await positions of the methods, with the local variables used after them. -/
inductive AuthTask where
  /-- `createUser` awaits the password hash. -/
  | hashingAccount (kind : AccountKind) (draft : AccountDraft)
  /-- `createUser` awaits `persistUsers`. -/
  | savingAccount (kind : AccountKind) (userId : String)
  /-- `login` awaits `verify`. -/
  | verifying (attempt : LoginAttempt)
  /-- `createSession` awaits `persistSessions`. -/
  | openingSession (token userId : String)
  /-- `adminSetPassword` awaits the password hash. -/
  | hashingPassword (userId : String)
  /-- `adminSetPassword` or `deleteUser` awaits `persistUsers`. -/
  | savingReset (userId : String)
  /-- `deleteSessionsForUser` awaits `persistSessions`. -/
  | sweepingSessions (userId : String)
  /-- `deleteSessionsForUser` awaits `onCredentialsRevoked`. -/
  | notifying (userId : String)
  /-- A method awaits its last `persist…`; `authenticate` returns `null` after it. -/
  | saving
  deriving DecidableEq, Repr

/-- What a method resolves to. A `UserInfo` read after the last await is represented by
its id. -/
inductive AuthResult where
  | session (token userId : String)
  | account (userId : String)
  | identity (user : Option UserInfo)
  | done
  deriving DecidableEq, Repr

/-- How a method goes on after a segment. -/
inductive AuthNext where
  | await (task : AuthTask)
  | return (result : AuthResult)
  | throw (message : String)
  deriving DecidableEq, Repr

/-- One synchronous segment of a method. -/
structure Segment where
  store : AuthStore
  writes : List AuthFile
  next : AuthNext

namespace AuthStore

/-- A segment that changes nothing and throws. -/
def fail (s : AuthStore) (message : String) : Segment := ⟨s, [], .throw message⟩

variable (env : AuthEnv)

def normalizeUsername (username : String) : String := env.toLowerCase (trim username)

/-- Empty and white-space-only both mean "no address". -/
def normalizeEmail (email : Option String) : Option String :=
  (email.map fun e => env.toLowerCase (trim e)).filter (· ≠ "")

/-- `u.email` of a stored record. -/
def emailOf (s : AuthStore) (u : UserRecord) : Option String := u.email <|> s.defaults.email

def toUserInfo (s : AuthStore) (rec : UserRecord) : UserInfo :=
  { id := rec.id, username := rec.username, isOwner := rec.isOwner
    roleIds := (rec.roleIds <|> s.defaults.roleIds).getD []
    createdAt := rec.createdAt
    systemUser := ((rec.systemUser <|> s.defaults.systemUser).join)
    email := s.emailOf rec }

/-- The account behind an id. The one of an inherited name has no fields and is left
out: no credential carries such an id. -/
def getUserById (s : AuthStore) (userId : String) : Option UserInfo :=
  (s.users.get? userId).map s.toUserInfo

def needsSetup (s : AuthStore) : Bool := s.users.entries.isEmpty

/-! #### Accounts -/

/-- The message of `assertEmailAvailable`, if it throws. -/
def assertEmailAvailable (s : AuthStore) (email : String) (exceptUserId : Option String) :
    Option String :=
  if !emailShape email then some ("Invalid email address: " ++ email)
  else if s.users.values.any fun u => exceptUserId ≠ some u.id && s.emailOf u = some email then
    some "Another account already uses that email address"
  else none

/-- The checks of `createUser`, up to its await of the password hash. -/
def createUser (s : AuthStore) (id username password : String) (roleIds : List String)
    (isOwner : Bool) (email : Option String) : Except String AccountDraft :=
  let name := normalizeUsername env username
  if name = "" then .error "Username is required"
  else if jsLength password < 8 then .error "Password must be at least 8 characters"
  else if s.users.values.any fun u => u.username = name then .error "Username already taken"
  else
    match normalizeEmail env email with
    | none => .ok { id, username := name, isOwner, roleIds, email := none }
    | some e =>
      match s.assertEmailAvailable e none with
      | some message => .error message
      | none => .ok { id, username := name, isOwner, roleIds, email := some e }

/-- The rest of `createUser`, once the hash is there. -/
def insertUser (s : AuthStore) (draft : AccountDraft) (passwordHash : String) (createdAt : ℕ) :
    AuthStore :=
  { s with
    users := s.users.set draft.id
      { id := draft.id, username := draft.username, passwordHash, isOwner := draft.isOwner
        roleIds := some draft.roleIds, createdAt, systemUser := none, extraPermissions := none
        email := draft.email } }

def setupOwner (s : AuthStore) (id username password : String) (ip userAgent : Option String) :
    Segment :=
  if !s.needsSetup then s.fail "Setup already completed"
  else
    match s.createUser env id username password [] true none with
    | .error message => s.fail message
    | .ok draft => ⟨s, [], .await (.hashingAccount (.owner ip userAgent) draft)⟩

/-- The known role ids without repetitions, or the message about an unknown one. -/
def knownRoleIds (roleIds : List String) : Except String (List String) :=
  match roleIds.find? fun id => !env.roleExists id with
  | some id => .error ("Unknown role: " ++ id)
  | none => .ok (roleIds.foldl (fun out id => if out.contains id then out else out ++ [id]) [])

def addUser (s : AuthStore) (id username password : String) (roleIds : List String)
    (email : Option String) : Segment :=
  match knownRoleIds env roleIds with
  | .error message => s.fail message
  | .ok roleIds =>
    match s.createUser env id username password roleIds false email with
    | .error message => s.fail message
    | .ok draft => ⟨s, [], .await (.hashingAccount .additional draft)⟩

def deleteUser (s : AuthStore) (userId callerId : String) : Segment :=
  match lookup s.users userId with
  | .absent => ⟨s, [], .return .done⟩
  | slot =>
    if slot.isOwner then s.fail "The owner account can't be deleted"
    else if userId = callerId then s.fail "You can't delete your own account"
    else ⟨{ s with users := s.users.erase userId }, [.users], .await (.savingReset userId)⟩

/-- The shape of the field setters: the record found under `userId` gets a change, which
under `__proto__` is a change of the defaults and under another inherited name changes
no record. -/
def setFields (s : AuthStore) (userId : String) (change : UserRecord → UserRecord)
    (changeDefaults : UserDefaults → UserDefaults) : Segment :=
  match lookup s.users userId with
  | .absent => s.fail "User not found"
  | .own _ => ⟨{ s with users := s.users.modify userId change }, [.users], .await .saving⟩
  | .inherited =>
    ⟨if userId = "__proto__" then { s with defaults := changeDefaults s.defaults } else s,
      [.users], .await .saving⟩

def setUserRoles (s : AuthStore) (userId : String) (roleIds : List String) : Segment :=
  match lookup s.users userId with
  | .absent => s.fail "User not found"
  | slot =>
    if slot.isOwner then
      s.fail "The owner holds every permission and can't be assigned roles"
    else
      match knownRoleIds env roleIds with
      | .error message => s.fail message
      | .ok roleIds =>
        s.setFields userId (fun rec => { rec with roleIds := some roleIds })
          fun d => { d with roleIds := some roleIds }

/-- The trimmed, non-empty, distinct nodes, or the message about an invalid one. -/
def cleanPermissions (permissions : List String) : Except String (List String) :=
  let nodes := (permissions.map trim).filter (· ≠ "")
  match nodes.find? fun node => !isValidPermission node with
  | some node => .error ("Invalid permission node: " ++ node)
  | none => .ok (nodes.foldl (fun out n => if out.contains n then out else out ++ [n]) [])

def setPermissions (s : AuthStore) (userId : String) (permissions : List String) : Segment :=
  match lookup s.users userId with
  | .absent => s.fail "User not found"
  | _ =>
    match cleanPermissions permissions with
    | .error message => s.fail message
    | .ok cleaned =>
      s.setFields userId (fun rec => { rec with extraPermissions := some cleaned })
        fun d => { d with extraPermissions := some cleaned }

def setSystemUser (s : AuthStore) (userId : String) (systemUser : Option String) : Segment :=
  match lookup s.users userId with
  | .absent => s.fail "User not found"
  | _ =>
    let name := (systemUser.map trim).filter (· ≠ "")
    match name.filter fun n => !isSystemUsername n with
    | some n => s.fail ("Invalid system username: " ++ n)
    | none =>
      s.setFields userId (fun rec => { rec with systemUser := some name })
        fun d => { d with systemUser := some name }

def setEmail (s : AuthStore) (userId : String) (email : Option String) : Segment :=
  match lookup s.users userId with
  | .absent => s.fail "User not found"
  | _ =>
    let normalized := normalizeEmail env email
    match normalized.bind fun e => s.assertEmailAvailable e (some userId) with
    | some message => s.fail message
    | none =>
      s.setFields userId (fun rec => { rec with email := normalized })
        fun d => { d with email := normalized }

/-- The checks of `adminSetPassword`, up to its await of the password hash. -/
def adminSetPassword (s : AuthStore) (userId password : String) : Segment :=
  match lookup s.users userId with
  | .absent => s.fail "User not found"
  | _ =>
    if jsLength password < 8 then s.fail "Password must be at least 8 characters"
    else ⟨s, [], .await (.hashingPassword userId)⟩

/-! #### Sessions -/

/-- The change `createSession` makes before it awaits `persistSessions`. -/
def createSession (s : AuthStore) (userId token id : String) (ip userAgent : Option String)
    (now : ℕ) : Segment :=
  ⟨{ s with
      sessions := s.sessions.set token
        { id, userId, createdAt := now, lastSeenAt := now, ip, userAgent } },
    [.sessions], .await (.openingSession token userId)⟩

/-- `login` up to its await of `verify`. -/
def login (s : AuthStore) (username password : String) (ip userAgent : Option String) (now : ℕ) :
    Segment :=
  let key := ip.getD (normalizeUsername env username)
  if (s.loginFailures.get? key).any fun blocked => blocked.blockedUntil > now then
    s.fail "Too many failed attempts — try again later"
  else
    let rec? := s.users.values.find? fun u => u.username = normalizeUsername env username
    ⟨s, [], .await (.verifying
      { key, userId := rec?.map UserRecord.id, password
        hash := (rec?.map UserRecord.passwordHash).getD s.dummyHash, ip, userAgent })⟩

/-- Count a failed login, arming a cooldown once the threshold is hit. -/
def recordLoginFailure (s : AuthStore) (key : String) (now : ℕ) : AuthStore :=
  let entry := (s.loginFailures.get? key).getD ⟨0, 0⟩
  { s with
    loginFailures := s.loginFailures.set key
      (if entry.count + 1 ≥ maxLoginFailures then ⟨0, now + loginBlockMs⟩
        else ⟨entry.count + 1, entry.blockedUntil⟩) }

/-- `login` after `verify`. -/
def verified (s : AuthStore) (attempt : LoginAttempt) (token id : String) (now : ℕ) : Segment :=
  match attempt.userId with
  | some userId =>
    if env.verify attempt.password attempt.hash then
      { s with loginFailures := s.loginFailures.erase attempt.key }.createSession userId token id
        attempt.ip attempt.userAgent now
    else ⟨s.recordLoginFailure attempt.key now, [], .throw "Invalid username or password"⟩
  | none => ⟨s.recordLoginFailure attempt.key now, [], .throw "Invalid username or password"⟩

def logout (s : AuthStore) (token : Option String) : Segment :=
  match token.filter (· ≠ "") with
  | none => ⟨s, [], .return .done⟩
  | some token =>
    match lookup s.sessions token with
    | .absent => ⟨s, [], .return .done⟩
    | _ => ⟨{ s with sessions := s.sessions.erase token }, [.sessions], .await .saving⟩

def revokeSession (s : AuthStore) (userId sessionId : String) (currentToken : Option String) :
    Segment :=
  match s.sessions.entries.find? fun e => e.2.userId = userId && e.2.id = sessionId with
  | none => s.fail "Session not found"
  | some (token, _) =>
    if currentToken = some token then
      s.fail "Can't revoke your own current session this way — log out instead"
    else ⟨{ s with sessions := s.sessions.erase token }, [.sessions], .await .saving⟩

/-- The loop of `deleteSessionsForUser`, up to its next await. -/
def deleteSessionsForUser (s : AuthStore) (userId : String) : Segment :=
  if s.sessions.values.any fun session => session.userId = userId then
    ⟨{ s with sessions := s.sessions.filter fun _ session => session.userId ≠ userId },
      [.sessions], .await (.sweepingSessions userId)⟩
  else ⟨s, [], .await (.notifying userId)⟩

/-- Resolve a bearer token to its user. The clock is read for the expiry check and for
`lastSeenAt`. -/
def authenticate (s : AuthStore) (token : Option String) (checkedAt seenAt : ℕ) : Segment :=
  match (token.filter (· ≠ "")).bind fun t => (s.sessions.get? t).map fun session => (t, session)
  with
  -- an inherited name has no `userId`, and no account is stored under `undefined`
  | none => ⟨s, [], .return (.identity none)⟩
  | some (token, session) =>
    if checkedAt - session.lastSeenAt > sessionTtlMs then
      ⟨{ s with sessions := s.sessions.erase token }, [.sessions], .await .saving⟩
    else
      match s.users.get? session.userId with
      | none => ⟨s, [], .return (.identity none)⟩
      | some rec =>
        ⟨{ s with
            sessions := s.sessions.modify token fun session =>
              { session with lastSeenAt := seenAt } },
          -- persisted without waiting
          [.sessions], .return (.identity (some (s.toUserInfo rec)))⟩

end AuthStore

end ServerCentral.Auth
