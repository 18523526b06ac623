import ServerCentral.Framework.Machine
import ServerCentral.Framework.Table

/-!
# The device-code store

`DeviceCodeStore` holds the pending device authorizations: a device opens one with
`request` and collects the answer with `poll`, a human answers it with `resolve`
after `findPending` has shown it. All methods are synchronous, so the runs of
`deviceMachine` take one method call at a step.

A `Date.now()` is one argument for each time the code reads the clock, and a
random draw is an argument as well. User codes and typed input are lists of code
points, which is what `[...input.toUpperCase()]` iterates over; an unpaired
surrogate is no `Char`, and the alphabet filter drops it like every other
character it does not know.
-/

open Framework

namespace ServerCentral.Oidc

/-- The base-20 alphabet of user codes. -/
def userCodeAlphabet : List Char := "BCDFGHJKLMNPQRSTVWXZ".toList

def userCodeLength : ℕ := 8

/-- 5 minutes. -/
def deviceTtlMs : ℕ := 5 * 60 * 1000

def pollIntervalS : ℕ := 5

def pollGraceMs : ℕ := 500

def maxPending : ℕ := 64

def maxPendingPerIp : ℕ := 8

def generateAttempts : ℕ := 100

inductive DeviceStatus where
  | pending
  | approved
  | denied
  deriving DecidableEq, Repr

/-- What a human answers. -/
inductive DeviceOutcome where
  | approved
  | denied
  deriving DecidableEq, Repr

def DeviceOutcome.status : DeviceOutcome → DeviceStatus
  | .approved => .approved
  | .denied => .denied

structure DeviceRequestRecord where
  deviceCode : String
  userCode : List Char
  clientId : String
  scope : String
  ip : Option String
  userAgent : Option String
  createdAt : ℕ
  expiresAt : ℕ
  status : DeviceStatus
  userId : Option String
  approvedAt : Option ℕ
  lastPolledAt : ℕ
  deriving DecidableEq, Repr

/-- A request answered with "yes": the two optional fields are present. -/
structure ApprovedDeviceRequest where
  record : DeviceRequestRecord
  userId : String
  approvedAt : ℕ
  deriving DecidableEq, Repr

inductive DevicePollError where
  | authorizationPending
  | slowDown
  | accessDenied
  | expiredToken
  | invalidGrant
  deriving DecidableEq, Repr

inductive DevicePollResult where
  | ok (record : ApprovedDeviceRequest)
  | error (error : DevicePollError)
  deriving DecidableEq, Repr

/-- The `params` of `request`. -/
structure DeviceParams where
  clientId : String
  scope : String
  ip : Option String
  userAgent : Option String
  deriving DecidableEq, Repr

/-! ### User codes -/

/-- The display form `XXXX-XXXX`. -/
def formatUserCode (code : List Char) : List Char := code.take 4 ++ '-' :: code.drop 4

/-- `toUpperCase` of one character. The table lists the characters outside ASCII
whose upper case contains an ASCII letter; the upper case of any other one has
none and is written as the character itself, which the alphabet filter drops
either way. -/
def toUpperCase : Char → List Char
  | 'ß' => ['S', 'S']
  | 'ı' => ['I']
  | 'ŉ' => ['ʼ', 'N']
  | 'ſ' => ['S']
  | 'ǰ' => ['J', '\u030c']
  | 'ẖ' => ['H', '\u0331']
  | 'ẗ' => ['T', '\u0308']
  | 'ẘ' => ['W', '\u030a']
  | 'ẙ' => ['Y', '\u030a']
  | 'ẚ' => ['A', 'ʾ']
  | 'ﬀ' => ['F', 'F']
  | 'ﬁ' => ['F', 'I']
  | 'ﬂ' => ['F', 'L']
  | 'ﬃ' => ['F', 'F', 'I']
  | 'ﬄ' => ['F', 'F', 'L']
  | 'ﬅ' => ['S', 'T']
  | 'ﬆ' => ['S', 'T']
  | c => [c.toUpper]

/-- What a human typed, reduced to what was generated. -/
def normalizeUserCode (input : List Char) : List Char :=
  (input.flatMap toUpperCase).filter fun c => userCodeAlphabet.contains c

/-- The loop of `differsEnough` over the remaining positions; `none` is its early
return. -/
def differing (a b : List Char) : List ℕ → List ℕ → Option (List ℕ)
  | [], found => some found
  | i :: is, found =>
    if a[i]? ≠ b[i]? then
      if (found ++ [i]).length > 2 then none else differing a b is (found ++ [i])
    else differing a b is found

/-- Whether no wrong key and no swap of neighbours turns one code into the other. -/
def differsEnough (a b : List Char) : Bool :=
  match differing a b (List.range a.length) [] with
  | none => true
  | some [i, j] => !(j == i + 1 && a[i]? == b[j]? && a[j]? == b[i]?)
  | some _ => false

/-- The place of the first letter. -/
def firstPlace : Fin 20 := 0

/-- The code spelled by eight draws of `randomInt(20)`. -/
def spellCode (draw : Fin userCodeLength → Fin 20) : List Char :=
  List.ofFn fun i => userCodeAlphabet.getD (draw i) 'B'

/-- Rejection sampling against the live set; `draws attempt` are the draws of one
attempt. -/
def generateUserCode (pending : List DeviceRequestRecord)
    (draws : ℕ → Fin userCodeLength → Fin 20) : Option (List Char) :=
  ((List.range generateAttempts).map fun attempt => spellCode (draws attempt)).find? fun code =>
    pending.all fun r => differsEnough code r.userCode

/-! ### The store -/

structure DeviceCodeStore where
  requests : Table String DeviceRequestRecord

namespace DeviceCodeStore

def prune (s : DeviceCodeStore) (now : ℕ) : DeviceCodeStore :=
  ⟨s.requests.filter fun _ rec => !decide (rec.expiresAt < now)⟩

/-- The records whose status is `pending`. -/
def pending (s : DeviceCodeStore) : List DeviceRequestRecord :=
  s.requests.values.filter fun r => decide (r.status = .pending)

/-- Open a pending authorization, or the message of the `DeviceCapError`. -/
def request (s : DeviceCodeStore) (params : DeviceParams) (deviceCode : String)
    (draws : ℕ → Fin userCodeLength → Fin 20) (prunedAt now : ℕ) :
    DeviceCodeStore × Except String DeviceRequestRecord :=
  let s := s.prune prunedAt
  if s.pending.length ≥ maxPending then
    (s, .error "Too many device authorizations are pending. Try again in a few minutes.")
  else if params.ip ≠ none ∧
      (s.pending.filter fun r => decide (r.ip = params.ip)).length ≥ maxPendingPerIp then
    (s, .error "Too many device authorizations are pending from this address.")
  else
    match generateUserCode s.pending draws with
    | none => (s, .error "Could not allocate a device code. Try again in a few minutes.")
    | some userCode =>
      let rec' : DeviceRequestRecord :=
        { deviceCode, userCode, clientId := params.clientId, scope := params.scope
          ip := params.ip, userAgent := params.userAgent
          createdAt := now, expiresAt := now + deviceTtlMs, status := .pending
          userId := none, approvedAt := none, lastPolledAt := now }
      (⟨s.requests.set deviceCode rec'⟩, .ok rec')

/-- The pending entry a typed code resolves to. -/
def pendingEntry (s : DeviceCodeStore) (input : List Char) :
    Option (String × DeviceRequestRecord) :=
  let normalized := normalizeUserCode input
  if normalized.length ≠ userCodeLength then none
  else s.requests.entries.find? fun e =>
    decide (e.2.userCode = normalized) && decide (e.2.status = .pending)

/-- Resolve what a human typed, for the approval screen. -/
def findPending (s : DeviceCodeStore) (input : List Char) (now : ℕ) :
    DeviceCodeStore × Option DeviceRequestRecord :=
  let s := s.prune now
  (s, (s.pendingEntry input).map Prod.snd)

/-- The change `resolve` makes to the record it finds. -/
def answer (outcome : DeviceOutcome) (userId : String) (approvedAt : ℕ)
    (rec : DeviceRequestRecord) : DeviceRequestRecord :=
  { rec with status := outcome.status, userId := some userId, approvedAt := some approvedAt }

/-- Answer a pending request. -/
def resolve (s : DeviceCodeStore) (input : List Char) (outcome : DeviceOutcome) (userId : String)
    (prunedAt approvedAt : ℕ) : DeviceCodeStore × Option DeviceRequestRecord :=
  let s := s.prune prunedAt
  match s.pendingEntry input with
  | none => (s, none)
  | some (key, rec) =>
    (⟨s.requests.modify key (answer outcome userId approvedAt)⟩,
      some (answer outcome userId approvedAt rec))

/-- One poll from the device. The clock is read for the expiry check, for
`lastPolledAt`, and for the interval check. -/
def poll (s : DeviceCodeStore) (deviceCode clientId : String)
    (checkedAt polledAt comparedAt : ℕ) : DeviceCodeStore × DevicePollResult :=
  match s.requests.get? deviceCode with
  | none => (s, .error .invalidGrant)
  | some rec =>
    if rec.clientId ≠ clientId then (s, .error .invalidGrant)
    else if rec.expiresAt < checkedAt then
      (⟨s.requests.erase deviceCode⟩, .error .expiredToken)
    else
      -- recorded before the status checks, so that hammering stays slowed
      let polled : DeviceCodeStore :=
        ⟨s.requests.modify deviceCode fun rec => { rec with lastPolledAt := polledAt }⟩
      if rec.status = .denied then
        (⟨polled.requests.erase deviceCode⟩, .error .accessDenied)
      else if comparedAt - rec.lastPolledAt < pollIntervalS * 1000 - pollGraceMs then
        (polled, .error .slowDown)
      else if rec.status = .pending then (polled, .error .authorizationPending)
      else
        match rec.userId, rec.approvedAt with
        | some userId, some approvedAt =>
          -- single-use: the grant is collected once
          (⟨polled.requests.erase deviceCode⟩,
            .ok ⟨{ rec with lastPolledAt := polledAt }, userId, approvedAt⟩)
        | _, _ => (polled, .error .invalidGrant)

end DeviceCodeStore

/-! ### The store over whole runs -/

/-- A method call with the values its clock and random draws return. -/
inductive DeviceOp where
  | request (params : DeviceParams) (deviceCode : String)
      (draws : ℕ → Fin userCodeLength → Fin 20) (prunedAt now : ℕ)
  | findPending (input : List Char) (now : ℕ)
  | resolve (input : List Char) (outcome : DeviceOutcome) (userId : String)
      (prunedAt approvedAt : ℕ)
  | poll (deviceCode clientId : String) (checkedAt polledAt comparedAt : ℕ)

/-- The clock readings of a call, in the order the code takes them. -/
def DeviceOp.readings : DeviceOp → List ℕ
  | .request _ _ _ prunedAt now => [prunedAt, now]
  | .findPending _ now => [now]
  | .resolve _ _ _ prunedAt approvedAt => [prunedAt, approvedAt]
  | .poll _ _ checkedAt polledAt comparedAt => [checkedAt, polledAt, comparedAt]

/-- The result of a call. -/
inductive DeviceEvent where
  | requested (result : Except String DeviceRequestRecord)
  | found (rec : Option DeviceRequestRecord)
  | resolved (rec : Option DeviceRequestRecord)
  | polled (result : DevicePollResult)

/-- The store, the last clock reading, and the device codes drawn so far. -/
structure DeviceState where
  store : DeviceCodeStore
  clock : ℕ
  minted : List String

namespace DeviceState

def initial : DeviceState := ⟨⟨.empty⟩, 0, []⟩

/-- The clock never runs backwards, and the random source never produces a device
code twice. -/
def Fresh (s : DeviceState) (op : DeviceOp) : Prop :=
  (s.clock :: op.readings).Pairwise (· ≤ ·) ∧
    match op with
    | .request _ deviceCode _ _ _ => deviceCode ∉ s.minted
    | _ => True

instance (s : DeviceState) (op : DeviceOp) : Decidable (s.Fresh op) := by
  unfold Fresh
  cases op <;> infer_instance

/-- The device codes drawn once `op` is done. -/
def mint (s : DeviceState) : DeviceOp → List String
  | .request _ deviceCode _ _ _ => deviceCode :: s.minted
  | _ => s.minted

/-- The method a label stands for. -/
def call (s : DeviceState) : DeviceOp → DeviceCodeStore × DeviceEvent
  | .request params deviceCode draws prunedAt now =>
    (s.store.request params deviceCode draws prunedAt now).map id .requested
  | .findPending input now => (s.store.findPending input now).map id .found
  | .resolve input outcome userId prunedAt approvedAt =>
    (s.store.resolve input outcome userId prunedAt approvedAt).map id .resolved
  | .poll deviceCode clientId checkedAt polledAt comparedAt =>
    (s.store.poll deviceCode clientId checkedAt polledAt comparedAt).map id .polled

/-- One call. -/
def step (s : DeviceState) (op : DeviceOp) : Option (DeviceState × DeviceEvent) :=
  if s.Fresh op then
    some (⟨(s.call op).1, op.readings.getLastD s.clock, s.mint op⟩, (s.call op).2)
  else none

end DeviceState

/-- **The device-code store over every sequence of calls.** -/
def deviceMachine : Machine DeviceState DeviceOp DeviceEvent where
  init := .initial
  step := DeviceState.step

end ServerCentral.Oidc
