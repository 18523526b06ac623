import Mathlib.Data.Fintype.EquivFin
import ServerCentral.Persistence

/-!
# Starting on the files

`AuthStore.init` reads the two files through `readJson`, carries records of older versions
over, and drops the sessions that have expired or have no account. `readJson` yields the
empty object for whatever it cannot read or parse, which is also what it yields for a file
that is not there: a damaged `users.json` looks like a fresh installation.

`damagedFiles` runs the store with its files from such a start on. `damage_reopens_setup`
says what follows for every damaged content: setup is open again, whoever comes first becomes
the owner, and the file that held the accounts is replaced.
-/

open Framework

namespace ServerCentral.Auth

/-! ### Reading -/

/-- What is found where a file should be. -/
inductive FileContent where
  | absent
  | unreadable
  | text (s : String)
  deriving DecidableEq, Repr

/-- `readJson`, which catches whatever the read or the parser throws. -/
def readJson {α : Type} (parse : String → Option (Table String α)) : FileContent → Table String α
  | .text s => (parse s).getD .empty
  | _ => .empty

/-- A content that exists but is no JSON. -/
def FileContent.Damaged {α : Type} (parse : String → Option (Table String α)) :
    FileContent → Prop
  | .absent => False
  | .unreadable => True
  | .text s => parse s = none

theorem readJson_damaged {α : Type} {parse : String → Option (Table String α)}
    {content : FileContent} (h : content.Damaged parse) : readJson parse content = .empty := by
  cases content with
  | absent => exact h.elim
  | unreadable => rfl
  | text s =>
    have h_none : parse s = none := h
    rw [readJson, h_none, Option.getD_none]

/-! ### `init` -/

/-- A record as the file has it, with the `role` of older versions. -/
structure StoredUser extends UserRecord where
  role : Option String
  deriving DecidableEq, Repr

/-- A session as the file has it; `id` is missing or empty in older versions. -/
structure StoredSession where
  id : Option String
  userId : String
  createdAt : ℕ
  lastSeenAt : ℕ
  ip : Option String
  userAgent : Option String
  deriving DecidableEq, Repr

/-- The record `migrateRoles` makes of a stored one, and whether it is another. -/
def StoredUser.migrate (u : StoredUser) : UserRecord × Bool :=
  match u.roleIds, u.role with
  | none, some role =>
    ({ u.toUserRecord with
        isOwner := decide (role = "owner")
        roleIds := some (if role = "owner" ∨ role = "none" then [] else [role]) }, true)
  | _, _ => (u.toUserRecord, false)

/-- The session `backfillSessionIds` makes of a stored one, and whether it is another. -/
def StoredSession.backfill (s : StoredSession) (newId : String) : SessionRecord × Bool :=
  let id := s.id.filter (· ≠ "")
  ({ id := id.getD newId, userId := s.userId, createdAt := s.createdAt
     lastSeenAt := s.lastSeenAt, ip := s.ip, userAgent := s.userAgent }, id.isNone)

/-- What `init` reads and draws. `newId` is the id drawn for the session of a token. -/
structure StartUp where
  parseUsers : String → Option (Table String StoredUser)
  parseSessions : String → Option (Table String StoredSession)
  users : FileContent
  sessions : FileContent
  dummyHash : String
  newId : String → String
  now : ℕ

namespace StartUp

variable (start : StartUp)

def storedUsers : Table String StoredUser := readJson start.parseUsers start.users

def storedSessions : Table String StoredSession := readJson start.parseSessions start.sessions

/-- The accounts after `migrateRoles`. -/
def migrateRoles : Table String UserRecord := start.storedUsers.map fun u => u.migrate.1

/-- The sessions after `backfillSessionIds`. -/
def backfillSessionIds : Table String SessionRecord where
  entries := start.storedSessions.entries.map fun e =>
    (e.1, (e.2.backfill (start.newId e.1)).1)
  nodup := by
    simpa [List.map_map, Function.comp_def] using start.storedSessions.nodup

/-- Whether `pruneExpired` keeps a session. -/
def keeps (_token : String) (session : SessionRecord) : Bool :=
  decide (start.now - session.lastSeenAt ≤ sessionTtlMs) &&
    match lookup start.migrateRoles session.userId with
    | .absent => false
    | _ => true

/-- The store after `init`. -/
def store : AuthStore where
  users := start.migrateRoles
  sessions := start.backfillSessionIds.filter start.keeps
  defaults := ⟨none, none, none, none⟩
  dummyHash := start.dummyHash
  loginFailures := .empty

/-- The files `init` writes. -/
def writes : List AuthFile :=
  (if start.storedUsers.values.any fun u => u.migrate.2 then [.users] else []) ++
    (if start.storedSessions.entries.any fun e => (e.2.backfill (start.newId e.1)).2 then
      [.sessions] else []) ++
    if start.backfillSessionIds.entries.any fun e => !start.keeps e.1 e.2 then [.sessions] else []

end StartUp

/-! ### A damaged account file -/

/-- A start on a damaged account file that held some accounts. -/
structure DamagedStart extends StartUp where
  held : List String
  held_ne : held ≠ []
  damaged : users.Damaged parseUsers

/-- What a file is while it has not been replaced, or what replaced it. -/
inductive DiskContent where
  | untouched
  | image (i : AuthImage)

/-- **The store with its files, from a start on.** -/
def damagedFiles (env : AuthEnv) (start : DamagedStart) :
    Machine (WriteBehind AuthState AuthFile DiskContent) (WriteLabel AuthLabel) (Option AuthOut) :=
  let files := writeBehind (authMachine env start.store) AuthOut.writes
    fun s f => .image (authImage s f)
  { files with init := { files.init with
      jobs := start.writes.map (·, .making)
      disk := fun _ => .untouched } }

/-- Setup is never open. -/
def NeverFresh (env : AuthEnv) (start : DamagedStart) : Prop :=
  ∀ tr s, (damagedFiles env start).Run tr s → s.memory.store.needsSetup = false

/-- `setupOwner`, which everybody may call, never creates an owner. -/
def NeverReowned (env : AuthEnv) (start : DamagedStart) : Prop :=
  ∀ tr s, (damagedFiles env start).Run tr s → ∀ x ∈ tr, ∀ o, x.2 = some o →
    ∀ ip userAgent userId, o.next ≠ .await (.savingAccount (.owner ip userAgent) userId)

/-- The file is never replaced by one that lacks an account it held. -/
def NeverOverwritten (env : AuthEnv) (start : DamagedStart) : Prop :=
  ∀ tr s, (damagedFiles env start).Run tr s → ∀ users, s.disk .users = .image (.users users) →
    ∀ id ∈ start.held, (users.get? id).isSome = true

/-! ### Setup after damage -/

variable {env : AuthEnv} {start : DamagedStart}

theorem DamagedStart.no_users (start : DamagedStart) : start.store.users = .empty := by
  have h_stored : start.storedUsers = .empty := readJson_damaged start.damaged
  have h_users : start.migrateRoles = .empty := by
    rw [StartUp.migrateRoles, h_stored]
    rfl
  exact h_users

theorem DamagedStart.fresh (start : DamagedStart) : start.store.needsSetup = true := by
  rw [AuthStore.needsSetup, start.no_users]
  rfl

/-- The random source always has something new. -/
theorem exists_fresh (used : List String) : ∃ id, id ∉ used := by
  have : Infinite String := Infinite.of_injective String.ofList fun _ _ h => String.ofList_inj.mp h
  obtain ⟨id, h_id⟩ := Infinite.exists_notMem_finset used.toFinset
  exact ⟨id, fun h => h_id (List.mem_toFinset.mpr h)⟩

/-- The account of whoever calls `setupOwner` first. -/
def intruder (env : AuthEnv) (id username : String) : AccountDraft :=
  { id, username := AuthStore.normalizeUsername env username, isOwner := true, roleIds := []
    email := none }

theorem setupOwner_open (start : DamagedStart) {username password : String}
    (h_name : AuthStore.normalizeUsername env username ≠ "") (h_password : 8 ≤ jsLength password)
    (id : String) :
    start.store.setupOwner env id username password none none =
      ⟨start.store, [], .await (.hashingAccount (.owner none none) (intruder env id username))⟩ := by
  have h_draft : start.store.createUser env id username password [] true none =
      .ok (intruder env id username) := by
    have h_free : (start.store.users.values.any fun u =>
        u.username = AuthStore.normalizeUsername env username) = false := by
      rw [start.no_users]
      rfl
    rw [AuthStore.createUser, if_neg h_name, if_neg (Nat.not_lt.mpr h_password), h_free]
    rfl
  rw [AuthStore.setupOwner, start.fresh, h_draft]
  rfl

/-- A run in which somebody sets up an owner and the account file is replaced. -/
theorem exists_takeover (start : DamagedStart) {username password : String}
    (h_name : AuthStore.normalizeUsername env username ≠ "") (h_password : 8 ≤ jsLength password) :
    ∃ tr s users, (damagedFiles env start).Run tr s ∧
      (∃ x ∈ tr, ∃ o userId, x.2 = some o ∧
        o.next = .await (.savingAccount (.owner none none) userId)) ∧
      s.disk .users = .image (.users users) ∧
      ∀ id ∈ start.held, users.get? id = none := by
  obtain ⟨id, h_id⟩ := exists_fresh (start.held ++ (AuthState.loaded start.store).minted)
  rw [List.mem_append, not_or] at h_id
  obtain ⟨token, h_token⟩ := exists_fresh (id :: (AuthState.loaded start.store).minted)
  -- the two segments of `setupOwner` up to the write
  let call : AuthLabel := .call (.setupOwner id username password none none)
  let resume : AuthLabel := .resume 0 ⟨none, "", token, token, 0⟩
  let hashing : Segment :=
    ⟨start.store, [], .await (.hashingAccount (.owner none none) (intruder env id username))⟩
  let inserted : Segment :=
    ⟨start.store.insertUser (intruder env id username) "" 0, [.users],
      .await (.savingAccount (.owner none none) id)⟩
  let m₁ := (AuthState.loaded start.store).after call 0 hashing
  let m₂ := m₁.after resume 0 inserted
  have h_call : (authMachine env start.store).step (.loaded start.store) call =
      some (m₁, ⟨0, [], hashing.next⟩) := by
    have h_fresh : (AuthState.loaded start.store).Fresh call := by
      refine ⟨List.pairwise_singleton _ _, fun x h_mem => ?_⟩
      obtain rfl := List.mem_singleton.mp h_mem
      exact h_id.2
    have h_segment : (AuthState.loaded start.store).segment env call = some (0, hashing) := by
      show some (0, start.store.setupOwner env id username password none none) = _
      rw [setupOwner_open start h_name h_password]
    show AuthState.step env _ _ = _
    rw [AuthState.step, if_pos h_fresh, h_segment]
    rfl
  have h_resume : (authMachine env start.store).step m₁ resume =
      some (m₂, ⟨0, [.users], inserted.next⟩) := by
    have h_fresh : m₁.Fresh resume := by
      refine ⟨by simp [m₁, resume, call, AuthState.after, AuthLabel.readings, AuthState.loaded],
        fun x h_mem => ?_⟩
      have h_x : x = token := by simpa [resume, AuthLabel.draws] using h_mem
      subst h_x
      exact h_token
    have h_segment : m₁.segment env resume = some (0, inserted) := by
      have h_task : m₁.tasks.get? 0 =
          some (.hashingAccount (.owner none none) (intruder env id username)) :=
        Table.get?_set_self _ _ _
      simp only [AuthState.segment, resume, h_task]
      rfl
    show AuthState.step env _ _ = _
    rw [AuthState.step, if_pos h_fresh, h_segment]
    rfl
  -- the two segments, with the job they start
  let image : AuthState → AuthFile → DiskContent := fun s f => .image (authImage s f)
  let files := damagedFiles env start
  let jobs := files.init.jobs ++ []
  let w₁ : WriteBehind AuthState AuthFile DiskContent := { files.init with memory := m₁, jobs }
  let w₂ : WriteBehind AuthState AuthFile DiskContent :=
    { w₁ with memory := m₂, jobs := jobs ++ [(.users, .making)] }
  have h_called : files.step files.init (.run call) = some (w₁, some ⟨0, [], hashing.next⟩) :=
    Option.map_eq_some_iff.mpr ⟨_, h_call, rfl⟩
  have h_inserted : files.step w₁ (.run resume) =
      some (w₂, some ⟨0, [.users], inserted.next⟩) :=
    Option.map_eq_some_iff.mpr ⟨_, h_resume, rfl⟩
  obtain ⟨tr, s, h_steps, h_memory, h_disk⟩ :=
    @WriteBehind.exists_write _ _ _ _ _ _ (authMachine env start.store) AuthOut.writes image files
      rfl w₂ jobs .users rfl
  have h_run : files.Run _ w₂ := .step (.step .init trivial h_called) trivial h_inserted
  refine ⟨_, s, m₂.store.users, h_run.append h_steps, ?_, h_disk, fun held h_held => ?_⟩
  · exact ⟨_, List.mem_append_left _ (List.mem_append_right _ (List.mem_singleton_self _)), _, id,
      rfl, rfl⟩
  · have h_ne : held ≠ id := fun h => h_id.1 (h ▸ h_held)
    have h_users : m₂.store.users = start.store.users.set id
        ⟨id, AuthStore.normalizeUsername env username, "", true, some [], 0, none, none, none⟩ :=
      rfl
    rw [h_users, Table.get?_set_of_ne _ _ h_ne, start.no_users]
    rfl

/-- **A damaged account file is a fresh installation**, whatever it held and whatever is wrong
with it, for every user name and password that an account may have. -/
theorem damage_reopens_setup (env : AuthEnv) (start : DamagedStart) {username password : String}
    (h_name : AuthStore.normalizeUsername env username ≠ "") (h_password : 8 ≤ jsLength password) :
    ¬NeverFresh env start ∧ ¬NeverReowned env start ∧ ¬NeverOverwritten env start := by
  obtain ⟨tr, s, users, h_run, ⟨x, h_mem, o, userId, h_out, h_next⟩, h_disk, h_gone⟩ :=
    @exists_takeover env start username password h_name h_password
  refine ⟨fun h => ?_, fun h => h tr s h_run x h_mem o h_out _ _ _ h_next, fun h => ?_⟩
  · have h_closed := h [] _ .init
    have h_open : (damagedFiles env start).init.memory.store.needsSetup = true := start.fresh
    exact absurd (h_closed.symm.trans h_open) (by simp)
  · obtain ⟨id, h_held⟩ := List.exists_mem_of_ne_nil start.held start.held_ne
    have h_some := h tr s h_run users h_disk id h_held
    rw [h_gone id h_held] at h_some
    cases h_some

/-- A file cut off in the middle, which held the account of the owner. -/
def truncated : DamagedStart where
  parseUsers _ := none
  parseSessions _ := some .empty
  users := .text "\x7b\"u1\": \x7b\"id\": \"u1\", \"isOw"
  sessions := .text "\x7b\x7d"
  dummyHash := ""
  newId _ := ""
  now := 0
  held := ["u1"]
  held_ne := by simp
  damaged := rfl

def sampleEnv : AuthEnv := ⟨id, fun _ _ => true, fun _ => true⟩

theorem damage_reopens_setup_sample : "x" ≠ "" ∧ 8 ≤ jsLength "12345678" ∧
    ¬NeverFresh sampleEnv truncated ∧ ¬NeverReowned sampleEnv truncated ∧
    ¬NeverOverwritten sampleEnv truncated :=
  ⟨by decide, by decide, @damage_reopens_setup sampleEnv truncated "x" "12345678"
    (by decide) (by decide)⟩

/-- The truncated file opens setup, and is replaced by one without the account `u1`. -/
theorem truncated_taken_over : ¬NeverFresh sampleEnv truncated ∧
    ∃ tr s users, (damagedFiles sampleEnv truncated).Run tr s ∧
      s.disk .users = .image (.users users) ∧ users.get? "u1" = none := by
  constructor
  · intro h
    exact absurd ((h [] _ .init).symm.trans truncated.fresh) (by simp)
  · obtain ⟨tr, s, users, h_run, -, h_disk, h_gone⟩ :=
      @exists_takeover sampleEnv truncated "x" "12345678" (by decide) (by decide)
    exact ⟨tr, s, users, h_run, h_disk, h_gone "u1" (by simp [truncated])⟩

end ServerCentral.Auth
