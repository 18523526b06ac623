import ServerCentral.Backends.Docker
import ServerCentral.Framework.Machine
import ServerCentral.Framework.Table

/-!
# The registry of compose stacks

`ComposeStackStore` records directories with a compose file on the hosts. A stack gets into
it in three ways: `create` and `import` predict the project name from the directory, and
register the stack after a few awaited calls of the agent; `syncHost` adopts what is
observed running, under the project name of the container label, and is the only one that
looks whether the name is taken.

The machine has a pending entry for every call that awaits an agent, so that any number of
calls run into each other. Nothing of the registry changes while the file is written, and
only `init` reads it: a run starts from the registry the file holds.
-/

open Framework

namespace ServerCentral.Compose

open Auth (trim isSpace)

structure ComposeStack where
  id : String
  name : String
  hostId : String
  dir : String
  composeFile : String
  project : String
  createdAt : ℕ
  deriving DecidableEq, Repr

/-! ### Names and paths -/

/-- `[a-z0-9_-]` -/
def isSlugChar (c : Char) : Bool := c.isLower || c.isDigit || c = '_' || c = '-'

/-- `replace(/[^a-z0-9_-]+/g, "-")`; the flag says that the last character was replaced. -/
def replaceRuns : Bool → List Char → List Char
  | _, [] => []
  | replaced, c :: cs =>
    if isSlugChar c then c :: replaceRuns false cs
    else if replaced then replaceRuns true cs
    else '-' :: replaceRuns true cs

/-- The last name in a path. -/
def baseName (dir : String) : Option String :=
  (((dir.toList.splitOn '/').filter fun part => !part.isEmpty).getLast?).map String.ofList

/-- `split("/").filter(Boolean).pop() ?? "stack"` -/
def predictedBase (dir : String) : String := (baseName dir).getD "stack"

def predictProjectName (toLowerCase : String → String) (dir : String) : String :=
  let slug := (replaceRuns false (toLowerCase (predictedBase dir)).toList).dropWhile (· = '-')
  let slug := (slug.reverse.dropWhile (· = '-')).reverse
  if slug.isEmpty then "stack" else String.ofList slug

def joinDir (dir name : String) : String :=
  if dir.toList.getLast? = some '/' then dir ++ name else dir ++ "/" ++ name

/-- The directory and the file of the first path of a `config_files` label, if it is an
absolute one. -/
def parseConfigFiles (configFiles : String) : Option (String × String) :=
  let first := (trim (String.ofList ((configFiles.toList.splitOn ',').headD []))).toList
  if first.head? ≠ some '/' then none
  else
    let file := (first.reverse.takeWhile (· ≠ '/')).reverse
    let dir := first.take (first.length - file.length - 1)
    if dir.isEmpty || file.isEmpty then none else some (String.ofList dir, String.ofList file)

/-- `COMPOSE_CANDIDATES` -/
def composeCandidates : List String :=
  ["compose.yaml", "compose.yml", "docker-compose.yaml", "docker-compose.yml"]

/-- `MANIFEST` -/
def manifest : String := "sc-stack.json"

/-- `LEGACY_MANIFEST` -/
def legacyManifest : String := "sc-app.json"

/-! ### Calls of an agent -/

/-- What the store asks of an agent. The manifest is the JSON of four fields. -/
inductive AgentCall where
  | createDir (path : String)
  | writeFile (path content : String)
  | writeManifest (path id name composeFile : String) (createdAt : ℕ)
  | listDir (path : String)
  | deletePath (path : String)
  deriving DecidableEq, Repr

namespace AgentCall

def manifestOf (stack : ComposeStack) : AgentCall :=
  .writeManifest (joinDir stack.dir manifest) stack.id stack.name stack.composeFile stack.createdAt

/-- A deleted legacy manifest is a best effort: the error is caught. -/
def bestEffort : AgentCall → Bool
  | .deletePath _ => true
  | _ => false

end AgentCall

/-- The text `create` writes: the pasted one without white space at its end, or the
beginning of an empty file. -/
def composeContent (content : Option String) : String :=
  match content.filter fun text => trim text ≠ "" with
  | some text => String.ofList (text.toList.reverse.dropWhile isSpace).reverse ++ "\n"
  | none => "services:\n"

/-- A call that awaits an agent: `import` the entries of the directory, `create` and
`import` the rest of their calls, `delete` the removal of the directory. -/
inductive Pending where
  | listing (hostId dir name : String)
  | registering (stack : ComposeStack) (calls : List AgentCall)
  | deleting (id : String)
  deriving DecidableEq, Repr

structure RegistryState where
  registry : Table String ComposeStack
  pending : List Pending

/-- A compose project as docker shows it, with the id it gets if it is adopted. -/
structure Observed where
  project : String
  configFiles : String
  id : String
  deriving DecidableEq, Repr

/-- A call of the store, or an answer for a pending one. `connected` says whether the fleet
has the host. -/
inductive RegistryLabel where
  | create (name hostId dir : String) (content : Option String) (connected : Bool) (id : String)
      (createdAt : ℕ)
  | importStack (hostId dir name : String) (connected : Bool)
  | listed (i : ℕ) (entries : Option (List String)) (id : String) (createdAt : ℕ)
  | returned (i : ℕ) (ok : Bool)
  | syncHost (hostId : String) (observed : List Observed) (createdAt : ℕ)
  | delete (id : String) (deleteDir connected : Bool)
  deriving DecidableEq, Repr

/-- What a step shows: a call of an agent, the end of a call, or its error. -/
inductive RegistryOut where
  | sent (call : AgentCall)
  | registered (stack : ComposeStack)
  | hostStacks (found : List ComposeStack)
  | deleted
  | thrown (message : String)
  /-- The error of the agent. -/
  | agentFailed
  deriving DecidableEq, Repr

namespace RegistryState

variable (toLowerCase : String → String)

/-- Await the first of some calls. -/
def await (s : RegistryState) (stack : ComposeStack) (call : AgentCall) (rest : List AgentCall) :
    RegistryState × RegistryOut :=
  ({ s with pending := s.pending ++ [.registering stack (call :: rest)] }, .sent call)

def create (s : RegistryState) (name hostId dir : String) (content : Option String)
    (connected : Bool) (id : String) (createdAt : ℕ) : RegistryState × RegistryOut :=
  if trim name = "" then (s, .thrown "Stack name is required")
  else if !connected then (s, .thrown ("Unknown server: " ++ hostId))
  else
    let stack : ComposeStack :=
      { id, name := trim name, hostId, dir, composeFile := "compose.yaml"
        project := predictProjectName toLowerCase dir, createdAt }
    s.await stack (.createDir dir)
      [.writeFile (joinDir dir stack.composeFile) (composeContent content), .manifestOf stack]

def importStack (s : RegistryState) (hostId dir name : String) (connected : Bool) :
    RegistryState × RegistryOut :=
  if trim name = "" then (s, .thrown "Stack name is required")
  else if !connected then (s, .thrown ("Unknown server: " ++ hostId))
  else ({ s with pending := s.pending ++ [.listing hostId dir (trim name)] }, .sent (.listDir dir))

/-- `import` once it has the entries of the directory. -/
def importListed (s : RegistryState) (hostId dir name : String) (entries : List String)
    (id : String) (createdAt : ℕ) : RegistryState × RegistryOut :=
  match composeCandidates.find? entries.contains with
  | none => (s, .thrown ("No compose file found in " ++ dir))
  | some composeFile =>
    let stack : ComposeStack :=
      { id, name, hostId, dir, composeFile, project := predictProjectName toLowerCase dir
        createdAt }
    s.await stack (.manifestOf stack)
      (if entries.contains legacyManifest then [.deletePath (joinDir dir legacyManifest)] else [])

/-- `create` and `import` after an answer: the next call, or the registered stack. -/
def proceed (s : RegistryState) (stack : ComposeStack) :
    List AgentCall → RegistryState × RegistryOut
  | [] => ({ s with registry := s.registry.set stack.id stack }, .registered stack)
  | call :: rest => s.await stack call rest

/-- The stacks of a host. -/
def ofHost (s : RegistryState) (hostId : String) : List ComposeStack :=
  s.registry.values.filter fun stack => stack.hostId = hostId

/-- The loop of `syncHost`, with the project names it knows. -/
def adoptAll (hostId : String) (createdAt : ℕ) :
    List Observed → List String → Table String ComposeStack → Table String ComposeStack
  | [], _, registry => registry
  | obs :: rest, known, registry =>
    if known.contains obs.project then adoptAll hostId createdAt rest known registry
    else
      match parseConfigFiles obs.configFiles with
      | none => adoptAll hostId createdAt rest known registry
      | some (dir, composeFile) =>
        adoptAll hostId createdAt rest (obs.project :: known)
          (registry.set obs.id
            ⟨obs.id, obs.project, hostId, dir, composeFile, obs.project, createdAt⟩)

theorem adoptAll_cons (hostId : String) (createdAt : ℕ) (obs : Observed) (rest : List Observed)
    (known : List String) (registry : Table String ComposeStack) :
    adoptAll hostId createdAt (obs :: rest) known registry =
      if known.contains obs.project then adoptAll hostId createdAt rest known registry
      else
        match parseConfigFiles obs.configFiles with
        | none => adoptAll hostId createdAt rest known registry
        | some (dir, composeFile) =>
          adoptAll hostId createdAt rest (obs.project :: known)
            (registry.set obs.id
              ⟨obs.id, obs.project, hostId, dir, composeFile, obs.project, createdAt⟩) := (rfl)

def syncHost (s : RegistryState) (hostId : String) (observed : List Observed) (createdAt : ℕ) :
    RegistryState × RegistryOut :=
  let s' : RegistryState :=
    { s with
      registry := adoptAll hostId createdAt observed
        ((s.ofHost hostId).map ComposeStack.project) s.registry }
  (s', .hostStacks (s'.ofHost hostId))

def unregister (s : RegistryState) (id : String) : RegistryState × RegistryOut :=
  ({ s with registry := s.registry.erase id }, .deleted)

def delete (s : RegistryState) (id : String) (deleteDir connected : Bool) :
    RegistryState × RegistryOut :=
  match s.registry.get? id with
  | none => (s, .thrown ("Unknown compose stack: " ++ id))
  | some stack =>
    if deleteDir && connected then
      ({ s with pending := s.pending ++ [.deleting id] }, .sent (.deletePath stack.dir))
    else s.unregister id

/-- A pending call is taken off the list. -/
def drop (s : RegistryState) (i : ℕ) : RegistryState := { s with pending := s.pending.eraseIdx i }

/-- An answer for a pending call. -/
def resume (s : RegistryState) (i : ℕ) (ok : Bool) : Option (RegistryState × RegistryOut) :=
  match s.pending[i]? with
  | some (.registering stack (call :: rest)) =>
    some (if ok || call.bestEffort then (s.drop i).proceed stack rest else (s.drop i, .agentFailed))
  | some (.deleting id) => some ((s.drop i).unregister id)
  | _ => none

def step (s : RegistryState) : RegistryLabel → Option (RegistryState × RegistryOut)
  | .create name hostId dir content connected id createdAt =>
    some (s.create toLowerCase name hostId dir content connected id createdAt)
  | .importStack hostId dir name connected => some (s.importStack hostId dir name connected)
  | .listed i entries id createdAt =>
    match s.pending[i]? with
    | some (.listing hostId dir name) =>
      some (match entries with
        | some entries => (s.drop i).importListed toLowerCase hostId dir name entries id createdAt
        | none => (s.drop i, .agentFailed))
    | _ => none
  | .returned i ok => s.resume i ok
  | .syncHost hostId observed createdAt => some (s.syncHost hostId observed createdAt)
  | .delete id deleteDir connected => some (s.delete id deleteDir connected)

end RegistryState

end ServerCentral.Compose
