import ServerCentral.Auth.Store
import ServerCentral.Framework.Machine

/-!
# The settings in config.json

Each setter of `config.json` reads the whole file, changes one setting and writes the file
back; the operations of the settings feature call one setter each, and apply the two lists
the running server holds: the allowlist of origins and the trusted proxies.

`settingsMachine` cuts the operations at their awaits. A suspended operation is a
`SettingsTask`, which carries what it has read and will still write or apply.

`SettingsKept` says what holds once all operations are over, `NoneStale` that no operation
writes a setting of which another one holds a value that it has read.
-/

open Framework

namespace ServerCentral.Settings

open Auth (trim)

/-! ### The file -/

/-- An entry of `trustedProxies`: an address, with the header its proxy writes if the entry
names one. -/
structure TrustedProxyEntry where
  address : String
  header : Option String
  deriving DecidableEq, Repr

structure Config where
  domain : Option String
  primaryUrl : Option String
  /-- The name of `primaryUrl` in older files. -/
  issuerUrl : Option String
  trustedProxies : Option (List TrustedProxyEntry)
  allowedOrigins : Option (List String)
  deriving DecidableEq, Repr

def Config.empty : Config := ⟨none, none, none, none, none⟩

/-- A string that is there and not empty. -/
def truthy (s : Option String) : Option String := s.filter (· ≠ "")

/-- A file from before the rename has its `issuerUrl` carried forward. -/
def Config.carried (c : Config) : Config :=
  if truthy c.primaryUrl = none ∧ truthy c.issuerUrl ≠ none then
    { c with primaryUrl := c.issuerUrl }
  else c

/-- What a file reads as; a missing one is empty. -/
def readConfig (file : Option Config) : Config :=
  match file with
  | some c => c.carried
  | none => .empty

/-- `primaryUrl.replace(/\/+$/, "")` -/
def stripSlashes (s : String) : String :=
  .ofList (s.toList.reverse.dropWhile (· = '/')).reverse

/-! ### Settings -/

inductive SettingKey where
  | domain
  | primaryUrl
  | trustedProxies
  | allowedOrigins
  deriving DecidableEq, Repr

/-- The value of a setting; an absent list is an empty one. -/
inductive SettingValue where
  | text (s : Option String)
  | proxies (entries : List TrustedProxyEntry)
  | origins (origins : List String)
  deriving DecidableEq, Repr

def Config.get (c : Config) : SettingKey → SettingValue
  | .domain => .text c.domain
  | .primaryUrl => .text c.primaryUrl
  | .trustedProxies => .proxies (c.trustedProxies.getD [])
  | .allowedOrigins => .origins (c.allowedOrigins.getD [])

/-- One call of a setter. `setPrimaryUrl` comes with the origins its operation has read
before, which it applies afterwards. -/
inductive Change where
  | domain (domain : Option String)
  | primaryUrl (next : Option String) (origins : List String)
  | trustedProxies (entries : List TrustedProxyEntry)
  | allowedOrigins (origins : List String)
  deriving DecidableEq, Repr

def Change.key : Change → SettingKey
  | .domain _ => .domain
  | .primaryUrl _ _ => .primaryUrl
  | .trustedProxies _ => .trustedProxies
  | .allowedOrigins _ => .allowedOrigins

/-- What the setters make of the file they have read. -/
def Change.apply (c : Config) : Change → Config
  | .domain name => { c with domain := truthy name }
  | .primaryUrl next _ =>
    { c with primaryUrl := (truthy next).map stripSlashes, issuerUrl := none }
  | .trustedProxies entries =>
    { c with trustedProxies := if entries.length > 0 then some entries else none }
  | .allowedOrigins origins =>
    { c with allowedOrigins := if origins.length > 0 then some origins else none }

/-- The value a change sets. -/
def Change.value : Change → SettingValue
  | .domain name => .text (truthy name)
  | .primaryUrl next _ => .text ((truthy next).map stripSlashes)
  | .trustedProxies entries => .proxies entries
  | .allowedOrigins origins => .origins origins

/-! ### Operations -/

/-- What comes from outside: the parser of URLs, the check of addresses, the variable that
locks the proxies, and the two functions that build what the running server applies. -/
structure SettingsEnv (Origins Proxies : Type) where
  /-- `normalizeUrl`: the origin of a bare http(s) URL, or the message. -/
  normalizeUrl : String → String → Except String String
  parseCidr : String → Bool
  trustedProxiesLocked : Bool
  resolveAllowedOrigins : List String → Option String → Origins
  parseTrustedProxies : List TrustedProxyEntry → Proxies
  /-- An origin is not empty and ends in no slash. -/
  origin : ∀ value label o, normalizeUrl value label = .ok o → o ≠ "" ∧ stripSlashes o = o

inductive SettingsOp where
  | setDomain (domain : Option String)
  | setPrimaryUrl (primaryUrl : Option String) (force : Bool)
  | setTrustedProxies (trustedProxies : List (String × String))
  | setAllowedOrigins (allowedOrigins : List String)
  deriving DecidableEq, Repr

def SettingsOp.key : SettingsOp → SettingKey
  | .setDomain _ => .domain
  | .setPrimaryUrl _ _ => .primaryUrl
  | .setTrustedProxies _ => .trustedProxies
  | .setAllowedOrigins _ => .allowedOrigins

/-- `/^[A-Za-z0-9!#$%&\'*+.^_`|~-]+$/` -/
def isHeaderName (name : String) : Bool :=
  name.toList ≠ [] ∧ name.toList.all fun c =>
    c.isAlphanum || "!#$%&'*+.^_\u0060|~-".toList.contains c

variable {Origins Proxies : Type} (env : SettingsEnv Origins Proxies)

/-- The entries of `setTrustedProxies`, each checked before the next. -/
def proxyEntries : List (String × String) → Except String (List TrustedProxyEntry)
  | [] => .ok []
  | (address, header) :: rest => do
    let trimmed := trim address
    let name := trim header
    if trimmed = "" then proxyEntries rest
    else if !env.parseCidr trimmed then
      .error s!"\"{trimmed}\" isn't a valid IP address or CIDR range"
    else if name ≠ "" && !isHeaderName name then .error s!"\"{name}\" isn't a valid header name"
    else
      let entries ← proxyEntries rest
      let header := if name = "" then none else some (String.ofList (name.toList.map Char.toLower))
      pure (⟨trimmed, header⟩ :: entries)

/-- The origins of `setAllowedOrigins`, after those found before. -/
def originEntries (found : List String) : List String → Except String (List String)
  | [] => .ok found
  | entry :: rest => do
    let trimmed := trim entry
    if trimmed = "" then originEntries found rest
    else
      let origin ←
        if trimmed = "*" then .ok "*" else env.normalizeUrl trimmed "Allowed origin"
      originEntries (if found.contains origin then found else found ++ [origin]) rest

/-- `data.primaryUrl ? normalizeUrl(data.primaryUrl, "Primary URL") : null` -/
def nextUrl (primaryUrl : Option String) : Except String (Option String) :=
  match truthy primaryUrl with
  | some url => (env.normalizeUrl url "Primary URL").map some
  | none => .ok none

/-- What a call asks for: the value it wants the setting to have. -/
inductive SettingsOp.Requests : SettingsOp → SettingValue → Prop
  | domain (domain : Option String) : Requests (.setDomain domain) (.text (truthy domain))
  | primaryUrl {primaryUrl next : Option String} {force : Bool}
      (h : nextUrl env primaryUrl = .ok next) :
      Requests (.setPrimaryUrl primaryUrl force) (.text next)
  | trustedProxies {data : List (String × String)} {entries : List TrustedProxyEntry}
      (h : proxyEntries env data = .ok entries) :
      Requests (.setTrustedProxies data) (.proxies entries)
  | allowedOrigins {data origins : List String} (h : originEntries env [] data = .ok origins) :
      Requests (.setAllowedOrigins data) (.origins origins)

/-! ### The machine -/

/-- The await positions of the operations, with what is used after them. -/
inductive SettingsTask where
  /-- `setPrimaryUrl` awaits its own `readConfig`. -/
  | checking (primaryUrl : Option String) (force : Bool)
  /-- A setter awaits `readConfig`. -/
  | loading (change : Change)
  /-- A setter awaits the write of the changed file. -/
  | writing (change : Change) (config : Config)
  /-- `setAllowedOrigins` awaits `readConfig` after its write. -/
  | reloading (origins : List String)
  /-- The lists are applied next. -/
  | applyingOrigins (key : SettingKey) (origins : List String) (primaryUrl : Option String)
  | applyingProxies (entries : List TrustedProxyEntry)
  deriving DecidableEq, Repr

/-- The file, what the running server applies, the suspended operations and their number. -/
structure SettingsState (Origins Proxies : Type) where
  file : Option Config
  allowedOrigins : Origins
  trustedProxies : Proxies
  tasks : Table ℕ SettingsTask
  calls : ℕ

inductive SettingsLabel where
  | call (op : SettingsOp)
  /-- An awaited `readConfig` is done; the number of SSO clients is read after it. -/
  | load (task : ℕ) (clients : ℕ)
  /-- An awaited write is done, or has failed. -/
  | write (task : ℕ) (ok : Bool)
  | apply (task : ℕ)
  deriving DecidableEq, Repr

inductive SettingsOut where
  | suspended
  /-- The file has the new value. -/
  | wrote (key : SettingKey)
  | completed (key : SettingKey)
  | failed (message : String)
  deriving DecidableEq, Repr

namespace SettingsState

variable (s : SettingsState Origins Proxies)

/-- An operation goes on to await. -/
def suspend (task : ℕ) (t : SettingsTask) : SettingsState Origins Proxies :=
  { s with tasks := s.tasks.set task t }

def finish (task : ℕ) : SettingsState Origins Proxies :=
  { s with tasks := s.tasks.erase task }

/-- The first segment of an operation. -/
def call (op : SettingsOp) : SettingsState Origins Proxies × SettingsOut :=
  let started (t : SettingsTask) := (({ s with calls := s.calls + 1 }).suspend s.calls t,
    SettingsOut.suspended)
  let refused (message : String) := ({ s with calls := s.calls + 1 }, SettingsOut.failed message)
  match op with
  | .setDomain domain => started (.loading (.domain domain))
  | .setPrimaryUrl primaryUrl force => started (.checking primaryUrl force)
  | .setTrustedProxies data =>
    if env.trustedProxiesLocked then
      refused ("Trusted proxies are set by SC_TRUSTED_PROXIES in the environment, so they can't "
        ++ "be changed here")
    else
      match proxyEntries env data with
      | .error message => refused message
      | .ok entries => started (.loading (.trustedProxies entries))
  | .setAllowedOrigins data =>
    match originEntries env [] data with
    | .error message => refused message
    | .ok origins => started (.loading (.allowedOrigins origins))

/-- `setPrimaryUrl` after its own `readConfig`. -/
def checked (task : ℕ) (clients : ℕ) (primaryUrl : Option String) (force : Bool) :
    SettingsState Origins Proxies × SettingsOut :=
  let config := readConfig s.file
  match nextUrl env primaryUrl with
  | .error message => (s.finish task, .failed message)
  | .ok next =>
    if next = config.primaryUrl then (s.finish task, .completed .primaryUrl)
    else if clients > 0 && !force then
      let trust := if clients = 1 then " that trusts" else "s that trust"
      (s.finish task, .failed
        (s!"Changing the primary URL will break sign-in for {clients} SSO client{trust} it as "
          ++ "their token issuer, until they're reconfigured."))
    else
      (s.suspend task (.loading (.primaryUrl next (config.allowedOrigins.getD []))), .suspended)

/-- The segment after a write. -/
def written (task : ℕ) (change : Change) (config : Config) :
    SettingsState Origins Proxies × SettingsOut :=
  let s := { s with file := some config }
  match change with
  | .domain _ => (s.finish task, .completed .domain)
  | .primaryUrl next origins =>
    (s.suspend task (.applyingOrigins .primaryUrl origins next), .wrote .primaryUrl)
  | .trustedProxies entries =>
    (s.suspend task (.applyingProxies entries), .wrote .trustedProxies)
  | .allowedOrigins origins => (s.suspend task (.reloading origins), .wrote .allowedOrigins)

def step : SettingsLabel → Option (SettingsState Origins Proxies × SettingsOut)
  | .call op => some (s.call env op)
  | .load task clients =>
    match s.tasks.get? task with
    | some (.checking primaryUrl force) => some (s.checked env task clients primaryUrl force)
    | some (.loading change) =>
      some (s.suspend task (.writing change (change.apply (readConfig s.file))), .suspended)
    | some (.reloading origins) =>
      let config := readConfig s.file
      some (s.suspend task (.applyingOrigins .allowedOrigins origins config.primaryUrl), .suspended)
    | _ => none
  | .write task ok =>
    match s.tasks.get? task with
    | some (.writing change config) =>
      if ok then some (s.written task change config)
      else some (s.finish task, .failed "write failed")
    | _ => none
  | .apply task =>
    match s.tasks.get? task with
    | some (.applyingOrigins key origins primaryUrl) =>
      some (({ s with
        allowedOrigins := env.resolveAllowedOrigins origins primaryUrl }).finish task,
        .completed key)
    | some (.applyingProxies entries) =>
      some (({ s with trustedProxies := env.parseTrustedProxies entries }).finish task,
        .completed .trustedProxies)
    | _ => none

end SettingsState

/-- **The settings under every interleaving**, with the lists built from the file at start. -/
def settingsMachine (file : Option Config) :
    Machine (SettingsState Origins Proxies) SettingsLabel SettingsOut where
  init :=
    { file
      allowedOrigins := env.resolveAllowedOrigins ((readConfig file).allowedOrigins.getD [])
        (readConfig file).primaryUrl
      trustedProxies := env.parseTrustedProxies ((readConfig file).trustedProxies.getD [])
      tasks := .empty
      calls := 0 }
  step s l := s.step env l

/-- The settings of which a suspended operation holds a value that it will still write back
or apply. -/
def SettingsTask.reliesOn : SettingsTask → SettingKey → Bool
  | .loading (.primaryUrl _ _), key => key = .allowedOrigins
  | .writing change _, key => key ≠ change.key
  | .reloading _, key => key = .allowedOrigins
  | .applyingOrigins _ _ _, key => key = .allowedOrigins || key = .primaryUrl
  | .applyingProxies _, key => key = .trustedProxies
  | _, _ => false

/-- No operation writes a setting that another one relies on. -/
def NoneStale (s : SettingsState Origins Proxies) : SettingsLabel → Prop
  | .write task true =>
    match s.tasks.get? task with
    | some (.writing change _) =>
      ∀ e ∈ s.tasks.entries, e.1 ≠ task → e.2.reliesOn change.key = false
    | _ => True
  | _ => True

instance (s : SettingsState Origins Proxies) (l : SettingsLabel) : Decidable (NoneStale s l) := by
  unfold NoneStale
  split
  · split <;> infer_instance
  · infer_instance

/-- **What holds once all operations are over.** -/
structure SettingsKept (file : Option Config) (tr : List (SettingsLabel × SettingsOut))
    (s : SettingsState Origins Proxies) : Prop where
  /-- A setting that no call sets has its old value. -/
  untouched : ∀ key, (∀ op out, (SettingsLabel.call op, out) ∈ tr → op.key ≠ key) →
    (readConfig s.file).get key = (readConfig file).get key
  /-- A setting that some call has set has the value one of the calls asked for. -/
  requested : ∀ key l, (l, SettingsOut.completed key) ∈ tr →
    ∃ op out, (SettingsLabel.call op, out) ∈ tr ∧ op.key = key ∧
      op.Requests env ((readConfig s.file).get key)
  origins : s.allowedOrigins = env.resolveAllowedOrigins
    ((readConfig s.file).allowedOrigins.getD []) (readConfig s.file).primaryUrl
  proxies : s.trustedProxies =
    env.parseTrustedProxies ((readConfig s.file).trustedProxies.getD [])

end ServerCentral.Settings
