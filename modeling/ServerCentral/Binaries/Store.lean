import ServerCentral.Binaries.Checksums
import ServerCentral.Framework.Flights
import ServerCentral.Framework.Machine

/-!
# The agent binaries

`resolveAgentBinary` finds the binary of a platform: in the cache, in `dist/`, or by a download
from the release source, which is verified against `SHA256SUMS` and put into the cache. Requests
that need the same download share it.

The machine cuts the calls at their awaits. What a fetch answers, what the configuration says and
whether a file operation succeeds comes with the label, and so does what others do to the files.
The process may end at any point.
-/

open Framework

namespace ServerCentral.Binaries

open Auth (inheritedNames)

abbrev Bytes := List UInt8

/-- What the store takes from its surroundings. -/
structure Runtime where
  /-- How a property that every object inherits reads in a message. -/
  inheritedText : String → String
  /-- `TextDecoder` -/
  decode : Bytes → Text
  /-- `createHash("sha256")`, in hexadecimal. -/
  sha256 : Bytes → Text

/-! ### Platforms and names -/

inductive Platform where
  | linuxX64 | linuxArm64 | macX64 | windowsX64
  deriving DecidableEq, Repr

def Platform.text : Platform → String
  | .linuxX64 => "linux-x64"
  | .linuxArm64 => "linux-arm64"
  | .macX64 => "mac-x64"
  | .windowsX64 => "windows-x64"

/-- `platform.startsWith("windows")` -/
def Platform.suffix : Platform → String
  | .windowsX64 => ".exe"
  | _ => ""

/-- `SUPPORTED_PLATFORMS` -/
def supportedPlatforms : List Platform := [.linuxX64, .linuxArm64, .macX64, .windowsX64]

/-- `LEGACY_PLATFORM_ALIASES` -/
def legacyPlatformAliases : List (String × Platform) :=
  [("linux", .linuxX64), ("mac", .macX64), ("windows", .windowsX64)]

/-- A platform name as it is looked up: a string, or a property that every object has. -/
inductive Normalized where
  | name (platform : String)
  | inherited (key : String)
  deriving DecidableEq, Repr

def normalizePlatform (platform : String) : Normalized :=
  match legacyPlatformAliases.lookup platform with
  | some current => .name current.text
  | none => if platform ∈ inheritedNames then .inherited platform else .name platform

def isSupported : Normalized → Option Platform
  | .name platform => supportedPlatforms.find? fun p => p.text = platform
  | .inherited _ => none

def Normalized.text (rt : Runtime) : Normalized → String
  | .name platform => platform
  | .inherited key => rt.inheritedText key

def assetName (platform : Platform) : String := "sc-agent-" ++ platform.text ++ platform.suffix

def cacheName (platform : Platform) (version : String) : String :=
  "sc-agent-" ++ platform.text ++ "-" ++ version ++ platform.suffix

def flightKey (platform : Platform) (version : String) : String := platform.text ++ "@" ++ version

/-- A file in the cache or in `dist/`. -/
inductive StoreFile where
  | cache (name : String)
  | dist (name : String)
  deriving DecidableEq, Repr

/-- `BinaryStoreError`, or what something else has thrown. -/
inductive ResolveError where
  | store (message : String) (status : ℕ)
  | other (message : String)
  deriving DecidableEq, Repr

def unsupported (rt : Runtime) (platform : Normalized) : ResolveError :=
  .store ("Unsupported platform: " ++ platform.text rt) 400

/-! ### A download -/

structure ReleaseSource where
  baseUrl : Option String
  token : Option String
  deriving DecidableEq, Repr

def defaultReleaseBaseUrl : String :=
  "https://github.com/jonastar/server-central/releases/download"

/-- `replace(/\/$/, "")` -/
def withoutSlash (url : String) : String :=
  if url.toList.getLast? = some '/' then .ofList url.toList.dropLast else url

def tagBase (cfg : ReleaseSource) (version : String) : String :=
  withoutSlash (cfg.baseUrl.getD defaultReleaseBaseUrl) ++ "/v" ++ version

/-- The two files of a download. -/
inductive Part where
  | binary
  | sums
  deriving DecidableEq, Repr

def Part.url (base : String) (platform : Platform) : Part → String
  | .binary => base ++ "/" ++ assetName platform
  | .sums => base ++ "/SHA256SUMS"

/-- What a fetch comes to: it is rejected, or there is a response, whose body can be read or not. -/
inductive Response where
  | rejected (message : String)
  | answered (status : ℕ) (body : Except String Bytes)

def download (url : String) : Response → Except ResolveError Bytes
  | .rejected message => .error (.store ("Fetch failed for " ++ url ++ ": " ++ message) 502)
  | .answered status body =>
    if 200 ≤ status ∧ status ≤ 299 then body.mapError .other
    else
      .error (.store ("HTTP " ++ toString status ++ " fetching " ++ url)
        (if status = 404 then 404 else 502))

/-- The check of `downloadVerifiedBinary`. -/
def verify (rt : Runtime) (platform : Platform) (version : String) (binary sums : Bytes) :
    Except ResolveError Unit :=
  match (parseChecksums (rt.decode sums)).get? (assetName platform).toList with
  | none =>
    .error (.store ("No SHA256SUMS entry for " ++ assetName platform ++ " in release v" ++
      version) 502)
  | some expected =>
    if rt.sha256 binary ≠ expected then
      .error (.store ("Checksum mismatch for " ++ assetName platform ++ " (expected " ++
        .ofList expected ++ ", got " ++ .ofList (rt.sha256 binary) ++ ")") 502)
    else .ok ()

/-- Where a download is. -/
inductive Stage where
  | directory
  | config
  | fetching (base : String) (binary sums : Option Bytes)
  | writing (binary : Bytes)

structure Download where
  platform : Platform
  version : String
  stage : Stage

/-! ### The store -/

/-- Which file a call looks for. -/
inductive Lookup where
  | cached
  | built
  deriving DecidableEq, Repr

structure Call where
  platform : Platform
  version : String
  lookup : Lookup
  deriving DecidableEq, Repr

structure BinaryStore where
  files : Table StoreFile Bytes
  /-- The calls that look for a file, by their numbers. -/
  calls : Table ℕ Call
  /-- `inflight`, and the downloads with those who wait for them. -/
  flights : Flights String Download ℕ
  /-- The calls there were. -/
  asked : List ℕ

inductive StoreLabel where
  /-- A call of `resolveAgentBinary`. -/
  | resolve (c : ℕ) (platform version : String)
  /-- `fileExists` has answered a call. -/
  | looked (c : ℕ)
  /-- A download has made the directory, and read the configuration. -/
  | directoryMade (j : ℕ) (result : Except String Unit)
  | configRead (j : ℕ) (result : Except String ReleaseSource)
  | fetched (j : ℕ) (part : Part) (response : Response)
  /-- `writeFileAtomic` -/
  | written (j : ℕ) (result : Except String Unit)
  /-- Someone else writes or deletes a file. -/
  | others (file : StoreFile) (content : Option Bytes)
  | restart

/-- What others see of a step. -/
structure StoreOut where
  answers : List (ℕ × Except ResolveError StoreFile) := []
  /-- A download that starts, with its number. -/
  started : Option (ℕ × Platform × String) := none
  /-- A file that the store writes. -/
  wrote : Option (StoreFile × Bytes) := none

namespace BinaryStore

/-- A download is over, whatever it came to. -/
def finish (s : BinaryStore) (j : ℕ) (result : Except ResolveError StoreFile) :
    BinaryStore × StoreOut :=
  ({ s with flights := s.flights.settle j },
    { answers := (s.flights.waiters j).map fun c => (c, result) })

def goOn (s : BinaryStore) (j : ℕ) (d : Download) (stage : Stage) : BinaryStore × StoreOut :=
  ({ s with flights := s.flights.advance j { d with stage } }, {})

/-- Both files of a download are there. -/
def check (rt : Runtime) (s : BinaryStore) (j : ℕ) (d : Download) (binary sums : Bytes) :
    BinaryStore × StoreOut :=
  match verify rt d.platform d.version binary sums with
  | .error e => s.finish j (.error e)
  | .ok () => s.goOn j d (.writing binary)

/-- One of the two fetches has succeeded. -/
def collect (rt : Runtime) (s : BinaryStore) (j : ℕ) (d : Download) (base : String) :
    Option Bytes → Option Bytes → BinaryStore × StoreOut
  | some binary, some sums => s.check rt j d binary sums
  | binary, sums => s.goOn j d (.fetching base binary sums)

/-- A file was looked for, and is not there. -/
def missed (s : BinaryStore) (c : ℕ) (call : Call) : BinaryStore × StoreOut :=
  match call.lookup with
  | .cached => ({ s with calls := s.calls.set c { call with lookup := .built } }, {})
  | .built =>
    let key := flightKey call.platform call.version
    let flights := s.flights.request key ⟨call.platform, call.version, .directory⟩ c
    ({ s with calls := s.calls.erase c, flights },
      { started :=
          if s.flights.inflight.has key then none
          else some (s.flights.started, call.platform, call.version) })

end BinaryStore

/-- The file a call looks for. -/
def Call.file (call : Call) : StoreFile :=
  match call.lookup with
  | .cached => .cache (cacheName call.platform call.version)
  | .built => .dist (assetName call.platform)

namespace BinaryStore

def step (rt : Runtime) (s : BinaryStore) : StoreLabel → Option (BinaryStore × StoreOut)
  | .resolve c platform version =>
    if c ∈ s.asked then none
    else
      let s := { s with asked := c :: s.asked }
      match isSupported (normalizePlatform platform) with
      | none =>
        some (s, { answers := [(c, .error (unsupported rt (normalizePlatform platform)))] })
      | some platform => some ({ s with calls := s.calls.set c ⟨platform, version, .cached⟩ }, {})
  | .looked c =>
    (s.calls.get? c).map fun call =>
      if s.files.has call.file then
        ({ s with calls := s.calls.erase c }, { answers := [(c, .ok call.file)] })
      else s.missed c call
  | .directoryMade j result =>
    match s.flights.work.get? j with
    | some (_, ⟨platform, version, .directory⟩) =>
      match result with
      | .error message => some (s.finish j (.error (.other message)))
      | .ok () => some (s.goOn j ⟨platform, version, .directory⟩ .config)
    | _ => none
  | .configRead j result =>
    match s.flights.work.get? j with
    | some (_, ⟨platform, version, .config⟩) =>
      match result with
      | .error message => some (s.finish j (.error (.other message)))
      | .ok cfg =>
        some (s.goOn j ⟨platform, version, .config⟩ (.fetching (tagBase cfg version) none none))
    | _ => none
  | .fetched j part response =>
    match s.flights.work.get? j with
    | some (_, ⟨platform, version, .fetching base binary sums⟩) =>
      -- A fetch answers once.
      if (match part with | .binary => binary | .sums => sums).isSome then none
      else
        match download (part.url base platform) response with
        | .error e => some (s.finish j (.error e))
        | .ok bytes =>
          let d : Download := ⟨platform, version, .fetching base binary sums⟩
          match part with
          | .binary => some (s.collect rt j d base (some bytes) sums)
          | .sums => some (s.collect rt j d base binary (some bytes))
    | _ => none
  | .written j result =>
    match s.flights.work.get? j with
    | some (_, ⟨platform, version, .writing binary⟩) =>
      match result with
      | .error message => some (s.finish j (.error (.other message)))
      | .ok () =>
        let file := StoreFile.cache (cacheName platform version)
        let (s, out) := { s with files := s.files.set file binary }.finish j (.ok file)
        some (s, { out with wrote := some (file, binary) })
    | _ => none
  | .others file content =>
    let files :=
      match content with
      | some content => s.files.set file content
      | none => s.files.erase file
    some ({ s with files }, {})
  | .restart =>
    -- The numbers of downloads go on, so that no two have the same.
    some ({ s with calls := .empty, flights := { Flights.empty with started := s.flights.started } },
      {})

end BinaryStore

/-- **The store over all its processes**, with an empty cache at first. -/
def storeMachine (rt : Runtime) : Machine BinaryStore StoreLabel StoreOut where
  init := ⟨.empty, .empty, .empty, []⟩
  step := BinaryStore.step rt

abbrev StoreTrace := List (StoreLabel × StoreOut)

end ServerCentral.Binaries
