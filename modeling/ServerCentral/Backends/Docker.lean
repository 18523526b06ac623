import ServerCentral.Backends.Commands
import Mathlib.Algebra.Order.Floor.Ring
import Mathlib.Data.Rat.Floor

/-!
# The docker backend

The functions of the docker backend as scripts: their checks, the commands they run with the
answers that decide what runs next, and their errors. A function that only reads returns the
answers the rest of it parses; the tables and listings it makes of them are left out, and so
are the lines it logs.

`Promise.all` over several commands sends them without waiting for the answers in between;
here one follows the other.
-/

open Framework

namespace ServerCentral.Backends

open Auth (trim isSpace)

namespace Docker

/-! ### Checks and verbs -/

/-- `SAFE_ID_RE`. -/
def safeId (s : String) : Bool :=
  leadTail Char.isAlphanum (fun c => c.isAlphanum || ['_', '.', '-'].contains c) s.toList

/-- `SAFE_REF_RE`. -/
def safeRef (s : String) : Bool :=
  leadTail Char.isAlphanum (fun c => c.isAlphanum || ['_', '.', '/', ':', '@', '-'].contains c)
    s.toList

def containerVerbs : List (String × List String) :=
  [("start", ["start"]), ("stop", ["stop"]), ("restart", ["restart"]), ("remove", ["rm", "-f"]),
    ("pause", ["pause"]), ("unpause", ["unpause"])]

def stackVerbs : List (String × List String) :=
  [("start", ["start"]), ("stop", ["stop"]), ("restart", ["restart"]), ("down", ["rm", "-f"])]

def composeVerbs : List (String × List String) :=
  [("up", ["up", "-d"]), ("restart", ["restart"]), ("stop", ["stop"]), ("down", ["down"]),
    ("pull", ["pull"])]

/-! ### Output -/

/-- `COMPOSE_WARNING_LINE_RE`: a line compose logs about something it recovered from. -/
def isComposeWarning (line : String) : Bool :=
  let opening := "time=\"".toList
  let level := "level=warning".toList
  if opening.isPrefixOf line.toList then
    match (line.toList.drop opening.length).dropWhile (· ≠ '"') with
    | [] => false
    | _ :: rest =>
      let text := rest.dropWhile isSpace
      -- at least one space, and a word boundary behind
      decide (text.length < rest.length) && level.isPrefixOf text &&
        (text.drop level.length).head?.all fun c => !(c.isAlphanum || c == '_')
  else false

/-- The first `n` code units of a text, without half a character at the end. -/
def sliceUnits : ℕ → List Char → List Char
  | _, [] => []
  | n, c :: cs =>
    if (codeUnit c).length ≤ n then c :: sliceUnits (n - (codeUnit c).length) cs else []

/-- The error output of a failed command, less the warnings if anything else is left. -/
def errorText (res : ExecResult) : String :=
  let lines := trimmedLines (trim (res.stdout ++ "\n" ++ res.stderr))
  let meaningful := lines.filter fun line => !isComposeWarning line
  let text := " — ".intercalate (if meaningful.length > 0 then meaningful else lines)
  if (codeUnits text.toList).length > 600 then
    String.ofList (sliceUnits 600 text.toList) ++ "…"
  else text

/-- The output on success, the error on failure. -/
def logOutput (res : ExecResult) : String :=
  if res.code = 0 then res.stdout
  else trim ("\n".intercalate ([res.stdout, res.stderr].filter (· ≠ "")))

/-- Fail with the error output of a command that did not succeed. -/
def expectOk (res : ExecResult) (otherwise : String) : HostScript Unit :=
  Script.require (res.code = 0) (orElse (errorText res) otherwise)

/-! ### Listings -/

def jsonLines : String := "\x7b\x7bjson .\x7d\x7d"

/-- The reason docker does not answer, if it does not. -/
def probe : HostScript (Option String) := do
  let res ← run [.word "docker", .word "version", .word "--format",
    .word "\x7b\x7b.Server.Version\x7d\x7d"]
  if res.code ≠ 0 then
    let first := ((trim (res.stdout ++ res.stderr)).splitOn "\n").headD ""
    pure (some (orElse first "docker unavailable"))
  else pure none

def dockerPsAll : Argv :=
  [.word "docker", .word "ps", .word "-a", .word "--format", .word jsonLines]

def dockerVolumeLs : Argv :=
  [.word "docker", .word "volume", .word "ls", .word "--format", .word jsonLines]

def dockerImages : Argv := [.word "docker", .word "images", .word "--format", .word jsonLines]

/-- Run commands one after the other. -/
def runAll : List Argv → HostScript (List ExecResult)
  | [] => pure []
  | argv :: rest => do
    let res ← run argv
    let others ← runAll rest
    pure (res :: others)

/-- Probe docker, then run the commands of a listing. -/
def listing (argvs : List Argv) : HostScript (Except String (List ExecResult)) := do
  match ← probe with
  | some err => pure (.error err)
  | none => pure (.ok (← runAll argvs))

def dockerList : HostScript (Except String (List ExecResult)) :=
  listing [dockerPsAll, dockerVolumeLs, dockerImages]

def dockerOverview : HostScript (Except String (List ExecResult)) :=
  listing [dockerPsAll, dockerVolumeLs, dockerImages,
    [.word "docker", .word "system", .word "df", .word "--format", .word jsonLines]]

def dockerStacks : HostScript (Except String (List ExecResult)) := listing [dockerPsAll]

def dockerFleetSnapshot : HostScript (Except String (List ExecResult)) := listing [dockerPsAll]

/-! ### Stacks -/

/-- The label compose puts on the containers and networks of a project. -/
def projectLabel (project : String) : String := s!"label=com.docker.compose.project={project}"

def dockerStackAction (project action : String) : HostScript Unit := do
  Script.require (safeId project) s!"Invalid stack name: {project}"
  let ids ← run [.word "docker", .word "ps", .word "-aq", .word "--filter",
    .caller (projectLabel project)]
  let containerIds := trimmedLines ids.stdout
  Script.require (containerIds.length ≠ 0) s!"No containers found for stack {project}"
  match stackVerbs.lookup action with
  | none => .fail s!"Unsupported stack action: {action}"
  | some cmd =>
    let res ← run (.word "docker" :: cmd.map .word ++ containerIds.map .host)
    expectOk res s!"docker {action} failed"

/-- The beginning of every compose command. -/
def composeArgv (composeFile project : String) (rest : Argv) : Argv :=
  [.word "docker", .word "compose", .word "-f", .caller composeFile, .word "-p", .caller project] ++
    rest

/-- `test -d` on the host. -/
def dirExists (dir : String) : HostScript Bool := do
  let res ← run [.word "test", .word "-d", .caller dir]
  pure (res.code = 0)

/-- Remove what an earlier command listed, if it listed anything. -/
def removeListed (argv : Argv) (listed : ExecResult) (otherwise : String) : HostScript Unit := do
  let ids := trimmedLines listed.stdout
  if ids.length > 0 then
    let rm ← run (argv ++ ids.map .host)
    expectOk rm otherwise
  else pure ()

/-- The `down` of a stack whose directory is gone. -/
def downByLabel (project : String) : HostScript Unit := do
  let ids ← run [.word "docker", .word "ps", .word "-aq", .word "--filter",
    .caller (projectLabel project)]
  removeListed [.word "docker", .word "rm", .word "-f"] ids "docker rm failed"
  let nets ← run [.word "docker", .word "network", .word "ls", .word "-q", .word "--filter",
    .caller (projectLabel project)]
  removeListed [.word "docker", .word "network", .word "rm"] nets "docker network rm failed"

/-- A service as the last arguments of a compose command; an empty name is no service. -/
def serviceArgs (service : Option String) : Argv :=
  match service with
  | some name => if name = "" then [] else [.caller name]
  | none => []

/-- Run a compose command of a stack in its directory. -/
def compose (dir composeFile project : String) (rest : Argv) : HostScript ExecResult :=
  runIn (some dir) (composeArgv composeFile project rest)

/-- The check of a service name, if there is one. -/
def requireService (service : Option String) : HostScript Unit :=
  match service with
  | some name => Script.require (safeId name) s!"Invalid service name: {name}"
  | none => pure ()

/-- The compose verb `down` for one service, which compose does not have. -/
def downService (dir composeFile project : String) (svc : Argv) : HostScript Unit := do
  let stop ← compose dir composeFile project (.word "stop" :: svc)
  expectOk stop "docker compose stop failed"
  let rm ← compose dir composeFile project (.word "rm" :: .word "-f" :: svc)
  expectOk rm "docker compose rm failed"

def composeStackAction (dir composeFile project action : String) (pullFirst : Bool)
    (service : Option String) : HostScript Unit := do
  Script.require (safeId project) s!"Invalid project name: {project}"
  requireService service
  match composeVerbs.lookup action with
  | none => .fail s!"Unsupported compose action: {action}"
  | some verb =>
    let svc := serviceArgs service
    let runVerb : HostScript Unit := do
      let res ← compose dir composeFile project (verb.map .word ++ svc)
      expectOk res s!"docker compose {action} failed"
    if pullFirst || action == "pull" then
      let pull ← compose dir composeFile project (.word "pull" :: svc)
      expectOk pull "docker compose pull failed"
    if action = "pull" then pure ()
    else if action = "down" ∧ svc = [] then
      if ← dirExists dir then runVerb else downByLabel project
    else if action = "down" then downService dir composeFile project svc
    else runVerb

/-- The answer `composeConfig` parses, or the error it carries. -/
def composeConfig (dir composeFile project : String) :
    HostScript (Except String ExecResult) := do
  Script.require (safeId project) s!"Invalid project name: {project}"
  let res ← compose dir composeFile project [.word "config", .word "--format", .word "json"]
  if res.code ≠ 0 then pure (.error (orElse (errorText res) "docker compose config failed"))
  else pure (.ok res)

/-- Validate a draft through a file beside the stack's own, named with a fresh `uuid`. The
file is deleted in any case. -/
def validateComposeContent (dir project content uuid : String) :
    HostScript (Except String Unit) := do
  Script.require (safeId project) s!"Invalid project name: {project}"
  let tempName := s!".sc-validate-{uuid}.yaml"
  let tempPath := if dir.endsWith "/" then dir ++ tempName else s!"{dir}/{tempName}"
  writeFile tempPath content
  .send
    (.run (composeArgv tempName project [.word "config", .word "--format", .word "json"])
      (some dir))
    fun reply => do
      deletePath tempPath
      match reply with
      | .exec res =>
        if res.code = 0 then pure (.ok ())
        else pure (.error (orElse (errorText res) "docker compose config failed"))
      | reply => .fail reply.unexpected

/-- `docker ps` scoped to a project by its label; nothing for a name that is none. -/
def psByProjectLabel (project : String) : HostScript (Option ExecResult) :=
  if !safeId project then pure none
  else do
    let res ← run [.word "docker", .word "ps", .word "-a", .word "--filter",
      .caller (projectLabel project), .word "--format", .word jsonLines]
    pure (if res.code ≠ 0 then none else some res)

/-- The configuration of a stack and what runs of it: the answer of compose, else of docker. -/
def getComposeStackStatus (dir composeFile project : String) :
    HostScript (Except String ExecResult × Option ExecResult) := do
  let config ← composeConfig dir composeFile project
  let psRes ← compose dir composeFile project
    [.word "ps", .word "--format", .word "json", .word "--all"]
  let present ← if psRes.code = 0 then pure (some psRes) else psByProjectLabel project
  pure (config, present)

/-- `String(Math.floor(n))`. -/
def floorText (n : ℚ) : String := toString ⌊n⌋

def getComposeStackLogs (dir composeFile project : String) (service : Option String) (tail : ℚ) :
    HostScript String := do
  Script.require (safeId project) s!"Invalid project name: {project}"
  requireService (service.filter (· ≠ ""))
  let res ← compose dir composeFile project
    ([.word "logs", .word "--no-color", .word "--tail", .caller (toString (max 1 ⌊tail⌋))] ++
      serviceArgs service)
  pure (logOutput res)

/-! ### Containers, volumes and images -/

/-- The check of a container id. -/
def requireContainerId (containerId : String) : HostScript Unit :=
  Script.require (safeId containerId) s!"Invalid container id: {containerId}"

def dockerContainerAction (containerId action : String) : HostScript Unit := do
  requireContainerId containerId
  match containerVerbs.lookup action with
  | none => .fail s!"Unsupported container action: {action}"
  | some cmd =>
    let res ← run (.word "docker" :: cmd.map .word ++ [.caller containerId])
    expectOk res s!"docker {action} failed"

def dockerContainerInspect (containerId : String) : HostScript ExecResult := do
  requireContainerId containerId
  let res ← run [.word "docker", .word "inspect", .caller containerId]
  expectOk res "docker inspect failed"
  pure res

def dockerContainerExec (containerId command : String) : HostScript ExecResult := do
  requireContainerId containerId
  run [.word "docker", .word "exec", .caller containerId, .word "sh", .word "-c", .caller command]

/-- `docker --since` for a relative window, if it is one of the known ones. -/
def dockerSince (since : Option String) : Option String :=
  since.filter fun token => ["15m", "1h", "6h", "24h"].contains token

def sinceArgs (since : Option String) : Argv :=
  match dockerSince since with
  | some token => [.word "--since", .caller token]
  | none => []

/-- The streams `dockerContainerLogs` merges, or its output when the command failed. -/
def dockerContainerLogs (containerId : String) (limit : Option ℚ) (since : Option String) :
    HostScript (Except String ExecResult) := do
  requireContainerId containerId
  let res ← run ([.word "docker", .word "logs", .word "--timestamps", .word "--tail",
    .caller (floorText (limit.getD 500))] ++ sinceArgs since ++ [.caller containerId])
  pure (if res.code ≠ 0 then .error (logOutput res) else .ok res)

/-- The check of a volume name. -/
def requireVolumeName (name : String) : HostScript Unit :=
  Script.require (safeId name) s!"Invalid volume name: {name}"

def dockerVolumeInspect (name : String) : HostScript (List ExecResult) := do
  requireVolumeName name
  let inspect ← run [.word "docker", .word "volume", .word "inspect", .caller name]
  let attached ← run [.word "docker", .word "ps", .word "-a", .word "--filter",
    .caller s!"volume={name}", .word "--format", .word jsonLines]
  expectOk inspect "docker volume inspect failed"
  pure [inspect, attached]

def dockerVolumeRemove (name : String) : HostScript Unit := do
  requireVolumeName name
  let res ← run [.word "docker", .word "volume", .word "rm", .caller name]
  expectOk res "docker volume rm failed"

def dockerImageAction (imageId action : String) : HostScript Unit := do
  Script.require (safeId imageId) s!"Invalid image id: {imageId}"
  Script.require (action = "remove") s!"Unsupported image action: {action}"
  let res ← run [.word "docker", .word "rmi", .caller imageId]
  expectOk res "docker rmi failed"

/-- The check of an image reference. -/
def requireRef (ref : String) : HostScript Unit :=
  Script.require (safeRef ref) s!"Invalid image reference: {ref}"

def dockerImagePull (ref : String) : HostScript String := do
  requireRef ref
  let res ← run [.word "docker", .word "pull", .caller ref]
  let lastLine := ((((trim (res.stdout ++ res.stderr)).splitOn "
").filter (· ≠ "")).getLast?).getD ""
  Script.require (res.code = 0) (orElse lastLine "docker pull failed")
  pure (orElse lastLine s!"Pulled {ref}")

/-- The configuration of an image that is present. -/
def imageDefaults (image : String) : HostScript (Option ExecResult) := do
  requireRef image
  let res ← run [.word "docker", .word "image", .word "inspect", .caller image, .word "--format",
    .word "{{json .Config}}"]
  pure (if res.code ≠ 0 then none else some res)

end Docker
end ServerCentral.Backends
