import ServerCentral.Auth.Store
import ServerCentral.Backends.Docker
import ServerCentral.Framework.Splitting
import ServerCentral.Framework.Table
import Mathlib.Data.List.Induction
import Mathlib.Data.List.Perm.Basic

/-!
# The status of a stack

`getComposeStackStatus` puts what a compose file declares together with the containers
docker lists: by `docker compose ps`, or, where compose cannot run in the directory of the
stack, by the project label on the containers. The entries go into a map by service, where a
later one replaces an earlier one, and the flags and the status are read off the map.

Several containers may belong to one service. `stack_status_iff` says when the result does
not depend on the order of the list and shows every service with a running container as up.
-/

open Framework ServerCentral.Backends.Docker
open ServerCentral.Auth (trim)

namespace ServerCentral.Compose

/-! ### What docker lists -/

structure Publisher where
  targetPort : Option ℕ
  publishedPort : Option ℕ
  protocol : Option (List Char)
  deriving DecidableEq, Repr

/-- An entry of `docker compose ps`; `psPorts` is only there in the fallback. -/
structure ComposePsEntry where
  id : Option String
  service : String
  image : Option String
  state : Option String
  publishers : List Publisher
  psPorts : Option (List Char)
  deriving DecidableEq, Repr

/-- A line of `docker ps`. -/
structure PsRow where
  id : Option String
  labels : Option String
  image : Option String
  state : Option String
  ports : Option (List Char)
  deriving DecidableEq, Repr

/-- The value of a key in the comma-joined labels. -/
def parseLabel (labels : Option String) (key : String) : Option String :=
  ((labels.getD "").toList.splitOn ',').findSome? fun pair =>
    match splitFirst '=' pair with
    | some (before, after) =>
      if before ≠ [] ∧ before = key.toList then some (String.ofList after) else none
    | none => none

/-! ### Published ports -/

/-- `` `${published}→${target}` `` -/
def arrowText (published target : List Char) : List Char := published ++ '→' :: target

/-- A number, or what a missing one prints as. -/
def portText (port : Option ℕ) : List Char :=
  port.elim "undefined".toList (Nat.toDigits 10)

namespace Publisher

/-- The key that duplicates share. -/
def key (p : Publisher) : List Char :=
  portText p.publishedPort ++ '/' :: (portText p.targetPort ++ '/' :: p.protocol.getD "tcp".toList)

/-- The port is published: its number is there and not zero. -/
def published (p : Publisher) : Bool := p.publishedPort.any fun n => decide (n ≠ 0)

def arrow (p : Publisher) : List Char := arrowText (portText p.publishedPort) (portText p.targetPort)

end Publisher

/-- The publishers whose key has not been seen before. -/
def firstByKey (seen : List (List Char)) : List Publisher → List Publisher
  | [] => []
  | p :: rest =>
    if seen.contains p.key then firstByKey seen rest else p :: firstByKey (p.key :: seen) rest

/-- Joined by `, `, or nothing. -/
def joinShown (pairs : List (List Char)) : Option (List Char) :=
  if pairs.length = 0 then none else some (", ".toList.intercalate pairs)

/-- The pairs `formatPorts` shows. -/
def formattedPairs (publishers : List Publisher) : List (List Char) :=
  (firstByKey [] (publishers.filter Publisher.published)).map Publisher.arrow

def formatPorts (entry : ComposePsEntry) : Option (List Char) :=
  joinShown (formattedPairs entry.publishers)

/-- `(\d+)->(\d+)` at the start of a text. -/
def matchArrow (text : List Char) : Option (List Char × List Char) :=
  let published := text.takeWhile Char.isDigit
  match text.dropWhile Char.isDigit with
  | '-' :: '>' :: rest =>
    let target := rest.takeWhile Char.isDigit
    if published ≠ [] ∧ target ≠ [] then some (published, target) else none
  | _ => none

/-- `/:(\d+)->(\d+)/`, the first match. -/
def findArrow : List Char → Option (List Char × List Char)
  | [] => none
  | c :: rest => (if c = ':' then matchArrow rest else none).or (findArrow rest)

/-- The match in a part of the column, `/:(\d+)->(\d+)/.exec(part.trim())`. -/
def scanPart (part : List Char) : Option (List Char × List Char) :=
  findArrow (trim (.ofList part)).toList

/-- The pairs `portsFromPsString` adds to its set, in order. -/
def scannedPairs (ports : List Char) : List (List Char) :=
  ((ports.splitOn ',').filterMap scanPart).foldl (fun seen pair =>
    if seen.contains (arrowText pair.1 pair.2) then seen else seen ++ [arrowText pair.1 pair.2]) []

def portsFromPsString (ports : Option (List Char)) : Option (List Char) :=
  joinShown (scannedPairs (ports.getD []))

/-! ### The list of entries -/

def PsRow.entry (row : PsRow) : Option ComposePsEntry :=
  match parseLabel row.labels "com.docker.compose.service" with
  | none => none
  | some service =>
    if service = "" then none
    else
      some
        { id := row.id, service, image := row.image, state := row.state, publishers := []
          psPorts := portsFromPsString row.ports }

/-- `rows` is `none` when `docker ps` fails. -/
def psByProjectLabel (project : String) (rows : Option (List PsRow)) : List ComposePsEntry :=
  if !safeId project then [] else (rows.getD []).filterMap PsRow.entry

/-- What docker answers: the entries of `docker compose ps`, or, where that fails, the rows of
`docker ps`. -/
inductive DockerListing where
  | compose (entries : List ComposePsEntry)
  | byLabel (project : String) (rows : Option (List PsRow))
  deriving DecidableEq, Repr

namespace DockerListing

def present : DockerListing → List ComposePsEntry
  | .compose entries => entries
  | .byLabel project rows => psByProjectLabel project rows

/-- The same answer, with the containers in another order. -/
inductive Reorders : DockerListing → DockerListing → Prop
  | compose {entries entries' : List ComposePsEntry} (h : entries.Perm entries') :
    Reorders (.compose entries) (.compose entries')
  | byLabel {project : String} {rows rows' : List PsRow} (h : rows.Perm rows') :
    Reorders (.byLabel project (some rows)) (.byLabel project (some rows'))
  | failed {project : String} : Reorders (.byLabel project none) (.byLabel project none)

end DockerListing

/-! ### The status -/

inductive ComposeStackRunStatus where
  | down
  | stopped
  | running
  | partly
  deriving DecidableEq, Repr

structure ComposeServiceStatus where
  name : String
  containerId : Option String
  image : Option String
  state : Option String
  ports : Option (List Char)
  up : Bool
  deriving DecidableEq, Repr

structure ComposeStackStatus where
  status : ComposeStackRunStatus
  services : List ComposeServiceStatus
  error : Option String
  deriving DecidableEq, Repr

/-- What `docker compose config` gives: the declared services with their images, if it could
be read, and an error. -/
structure ComposeConfig where
  services : Option (Table String (Option String))
  error : Option String

namespace ComposeConfig

def declared (config : ComposeConfig) : List String := (config.services.map Table.keys).getD []

def image (config : ComposeConfig) (name : String) : Option String :=
  (config.services.bind fun services => services.get? name).join

end ComposeConfig

/-- `new Map(present.map((e) => [e.Service, e]))` -/
def byService (present : List ComposePsEntry) : Table String ComposePsEntry :=
  present.foldl (fun entries e => entries.set e.service e) .empty

/-- The declared names, and after them those of other services that have a container. -/
def serviceNames (declared : List String) (present : List ComposePsEntry) : List String :=
  present.foldl (fun names e =>
    if e.service ≠ "" ∧ !names.contains e.service then names ++ [e.service] else names) declared

def serviceStatus (config : ComposeConfig) (present : List ComposePsEntry) (name : String) :
    ComposeServiceStatus :=
  let entry := (byService present).get? name
  { name
    containerId := entry.bind ComposePsEntry.id
    image := (entry.bind ComposePsEntry.image).or (config.image name)
    state := entry.bind ComposePsEntry.state
    ports := entry.bind fun e => e.psPorts.or (formatPorts e)
    up := entry.bind ComposePsEntry.state = some "running" }

def getComposeStackStatus (config : ComposeConfig) (listing : DockerListing) : ComposeStackStatus :=
  let present := listing.present
  let services := (serviceNames config.declared present).map (serviceStatus config present)
  let upCount := (services.filter ComposeServiceStatus.up).length
  { status :=
      if services.length = 0 ∨ present.length = 0 then .down
      else if upCount = 0 then .stopped
      else if upCount = services.length then .running
      else .partly
    services
    error := config.error }

/-! ### The map and the names -/

section Folds

variable {present : List ComposePsEntry} {declared : List String} {name : String}

theorem byService_concat (present : List ComposePsEntry) (e : ComposePsEntry) :
    byService (present ++ [e]) = (byService present).set e.service e := by
  rw [byService, List.foldl_append]
  rfl

/-- A later entry replaces an earlier one. -/
theorem byService_last (present : List ComposePsEntry) (e : ComposePsEntry) :
    (byService (present ++ [e])).get? e.service = some e := by
  rw [byService_concat, Table.get?_set_self]

/-- What the map holds for a service is one of its entries. -/
theorem byService_some {e : ComposePsEntry} (h : (byService present).get? name = some e) :
    e ∈ present ∧ e.service = name := by
  induction present using List.reverseRecOn with
  | nil => exact absurd h (by simp [byService])
  | append_singleton present last ih =>
    rw [byService_concat] at h
    obtain ⟨rfl, rfl⟩ | ⟨-, h⟩ := Table.get?_set_eq_some h
    · exact ⟨by simp, rfl⟩
    · obtain ⟨h_mem, h_service⟩ := ih h
      exact ⟨List.mem_append_left _ h_mem, h_service⟩

/-- A service with an entry is in the map. -/
theorem byService_isSome {e : ComposePsEntry} (h : e ∈ present) :
    ∃ e', (byService present).get? e.service = some e' := by
  induction present using List.reverseRecOn with
  | nil => exact absurd h List.not_mem_nil
  | append_singleton present last ih =>
    rw [byService_concat]
    by_cases h_service : e.service = last.service
    · exact ⟨last, by rw [h_service, Table.get?_set_self]⟩
    · rw [Table.get?_set_of_ne _ _ h_service]
      obtain h | h := List.mem_append.mp h
      · exact ih h
      · exact absurd (congrArg ComposePsEntry.service (List.mem_singleton.mp h)) h_service

theorem serviceNames_concat (declared : List String) (present : List ComposePsEntry)
    (e : ComposePsEntry) :
    serviceNames declared (present ++ [e]) =
      if e.service ≠ "" ∧ !(serviceNames declared present).contains e.service then
        serviceNames declared present ++ [e.service]
      else serviceNames declared present := by
  rw [serviceNames, List.foldl_append]
  rfl

theorem mem_serviceNames :
    name ∈ serviceNames declared present ↔
      name ∈ declared ∨ name ≠ "" ∧ ∃ e ∈ present, e.service = name := by
  induction present using List.reverseRecOn with
  | nil => simp [serviceNames]
  | append_singleton present last ih =>
    have h_concat : (∃ e ∈ present ++ [last], e.service = name) ↔
        (∃ e ∈ present, e.service = name) ∨ last.service = name := by
      simp [or_and_right, exists_or]
    rw [serviceNames_concat, h_concat]
    split
    case isTrue h =>
      rw [List.mem_append, ih, List.mem_singleton]
      constructor
      · rintro ((h_declared | ⟨h_ne, h_entry⟩) | rfl)
        · exact .inl h_declared
        · exact .inr ⟨h_ne, .inl h_entry⟩
        · exact .inr ⟨h.1, .inr rfl⟩
      · rintro (h_declared | ⟨h_ne, h_entry | rfl⟩)
        · exact .inl (.inl h_declared)
        · exact .inl (.inr ⟨h_ne, h_entry⟩)
        · exact .inr rfl
    case isFalse h =>
      -- the last service has no name, or its name is there already
      constructor
      · intro h_name
        obtain h_declared | ⟨h_ne, h_entry⟩ := ih.mp h_name
        · exact .inl h_declared
        · exact .inr ⟨h_ne, .inl h_entry⟩
      · rintro (h_declared | ⟨h_ne, h_entry | rfl⟩)
        · exact ih.mpr (.inl h_declared)
        · exact ih.mpr (.inr ⟨h_ne, h_entry⟩)
        · by_contra h_out
          exact h ⟨h_ne, by simpa using h_out⟩

theorem nodup_serviceNames (h : declared.Nodup) (present : List ComposePsEntry) :
    (serviceNames declared present).Nodup := by
  induction present using List.reverseRecOn with
  | nil => exact h
  | append_singleton present last ih =>
    rw [serviceNames_concat]
    split
    case isTrue h_new =>
      refine ih.append (List.nodup_singleton _) ?_
      rw [List.disjoint_singleton]
      simpa using h_new.2
    case isFalse => exact ih

end Folds

theorem ComposeConfig.nodup_declared (config : ComposeConfig) : config.declared.Nodup := by
  rw [declared]
  cases config.services with
  | none => exact List.nodup_nil
  | some services => exact services.nodup

/-! ### The order of the containers -/

theorem DockerListing.Reorders.perm {listing listing' : DockerListing}
    (h : listing.Reorders listing') : listing.present.Perm listing'.present := by
  cases h with
  | compose h => exact h
  | byLabel h =>
    show (psByProjectLabel _ _).Perm (psByProjectLabel _ _)
    rw [psByProjectLabel, psByProjectLabel]
    split
    · exact .refl _
    · exact h.filterMap _
  | failed => exact .refl _

/-- Any container can be the last of the list. -/
theorem DockerListing.exists_last {listing : DockerListing} {e : ComposePsEntry}
    (h : e ∈ listing.present) :
    ∃ listing' init, listing.Reorders listing' ∧ listing'.present = init ++ [e] := by
  cases listing with
  | compose entries =>
    obtain ⟨before, after, rfl⟩ := List.append_of_mem (show e ∈ entries from h)
    refine ⟨.compose (before ++ after ++ [e]), before ++ after, .compose ?_, rfl⟩
    exact List.perm_middle.trans (List.perm_append_singleton e _).symm
  | byLabel project rows =>
    have h_rows : e ∈ psByProjectLabel project rows := h
    rw [psByProjectLabel] at h_rows
    split at h_rows
    · exact absurd h_rows List.not_mem_nil
    next h_safe =>
    cases rows with
    | none => exact absurd h_rows List.not_mem_nil
    | some rows =>
      obtain ⟨row, h_row, h_entry⟩ := List.mem_filterMap.mp h_rows
      obtain ⟨before, after, rfl⟩ := List.append_of_mem (show row ∈ rows from h_row)
      refine ⟨.byLabel project (some (before ++ after ++ [row])),
        (before ++ after).filterMap PsRow.entry, .byLabel ?_, ?_⟩
      · exact List.perm_middle.trans (List.perm_append_singleton row _).symm
      · show psByProjectLabel project _ = _
        rw [psByProjectLabel, if_neg h_safe, Option.getD_some, List.filterMap_append]
        simp [h_entry]

/-- A service is listed, and up. -/
def ComposeStackStatus.Up (result : ComposeStackStatus) (name : String) : Prop :=
  ∃ s ∈ result.services, s.name = name ∧ s.up = true

/-- The result does not depend on the order, and a listed service with a running container
is up. -/
structure OrderFree (config : ComposeConfig) (listing : DockerListing) : Prop where
  status : ∀ listing', listing.Reorders listing' →
    (getComposeStackStatus config listing').status = (getComposeStackStatus config listing).status
  services : ∀ listing', listing.Reorders listing' → ∀ name,
    name ∈ (getComposeStackStatus config listing').services.map ComposeServiceStatus.name ↔
      name ∈ (getComposeStackStatus config listing).services.map ComposeServiceStatus.name
  up : ∀ listing', listing.Reorders listing' → ∀ name,
    (getComposeStackStatus config listing').Up name ↔ (getComposeStackStatus config listing).Up name
  running : ∀ e ∈ listing.present, e.state = some "running" →
    e.service ∈ (getComposeStackStatus config listing).services.map ComposeServiceStatus.name →
    (getComposeStackStatus config listing).Up e.service

/-- The containers of one service are all running or none of them is. -/
def AgreeOnRunning (config : ComposeConfig) (present : List ComposePsEntry) : Prop :=
  ∀ e ∈ present, ∀ e' ∈ present, e.service = e'.service →
    e.service ≠ "" ∨ e.service ∈ config.declared →
    (e.state = some "running" ↔ e'.state = some "running")

section Status

variable {config : ComposeConfig} {listing listing' : DockerListing} {name : String}

theorem services_names (config : ComposeConfig) (listing : DockerListing) :
    (getComposeStackStatus config listing).services.map ComposeServiceStatus.name =
      serviceNames config.declared listing.present := by
  rw [getComposeStackStatus]
  dsimp only
  rw [List.map_map]
  exact List.map_id _

theorem ComposeStackStatus.up_iff : (getComposeStackStatus config listing).Up name ↔
    name ∈ serviceNames config.declared listing.present ∧
      (serviceStatus config listing.present name).up = true := by
  constructor
  · rintro ⟨s, h_s, rfl, h_up⟩
    obtain ⟨name, h_name, rfl⟩ := List.mem_map.mp h_s
    exact ⟨h_name, h_up⟩
  · rintro ⟨h_name, h_up⟩
    exact ⟨_, List.mem_map_of_mem h_name, rfl, h_up⟩

theorem serviceStatus_up_iff {present : List ComposePsEntry} :
    (serviceStatus config present name).up = true ↔
      ∃ e, (byService present).get? name = some e ∧ e.state = some "running" := by
  rw [serviceStatus, decide_eq_true_iff, Option.bind_eq_some_iff]

/-- Where the containers agree, a service is up exactly if one of them is running. -/
theorem AgreeOnRunning.up_iff {present : List ComposePsEntry} (h : AgreeOnRunning config present)
    (h_name : name ∈ serviceNames config.declared present) :
    (serviceStatus config present name).up = true ↔
      ∃ e ∈ present, e.service = name ∧ e.state = some "running" := by
  have h_named : name ≠ "" ∨ name ∈ config.declared := by
    obtain h_declared | ⟨h_ne, -⟩ := (mem_serviceNames).mp h_name
    · exact .inr h_declared
    · exact .inl h_ne
  rw [serviceStatus_up_iff]
  constructor
  · rintro ⟨e, h_get, h_running⟩
    obtain ⟨h_mem, h_service⟩ := byService_some h_get
    exact ⟨e, h_mem, h_service, h_running⟩
  · rintro ⟨e, h_mem, rfl, h_running⟩
    obtain ⟨e', h_get⟩ := byService_isSome h_mem
    obtain ⟨h_mem', h_service⟩ := byService_some h_get
    exact ⟨e', h_get, (h e h_mem e' h_mem' h_service.symm h_named).mp h_running⟩

theorem AgreeOnRunning.perm {present present' : List ComposePsEntry}
    (h : AgreeOnRunning config present) (h_perm : present.Perm present') :
    AgreeOnRunning config present' := fun e h_e e' h_e' =>
  h e (h_perm.mem_iff.mpr h_e) e' (h_perm.mem_iff.mpr h_e')

theorem mem_serviceNames_perm {present present' : List ComposePsEntry}
    (h_perm : present.Perm present') :
    name ∈ serviceNames config.declared present' ↔ name ∈ serviceNames config.declared present := by
  rw [mem_serviceNames, mem_serviceNames]
  simp only [h_perm.mem_iff]

/-- The flags after a reordering. -/
theorem AgreeOnRunning.up_perm {present present' : List ComposePsEntry}
    (h : AgreeOnRunning config present) (h_perm : present.Perm present')
    (h_name : name ∈ serviceNames config.declared present) :
    (serviceStatus config present' name).up = (serviceStatus config present name).up := by
  rw [Bool.eq_iff_iff, h.up_iff h_name,
    (h.perm h_perm).up_iff ((mem_serviceNames_perm h_perm).mpr h_name)]
  simp only [h_perm.mem_iff]

/-- How many services are up. -/
theorem upCount_eq (config : ComposeConfig) (present : List ComposePsEntry) (names : List String) :
    ((names.map (serviceStatus config present)).filter ComposeServiceStatus.up).length =
      (names.filter fun name => (serviceStatus config present name).up).length := by
  rw [List.filter_map, List.length_map]
  rfl

theorem AgreeOnRunning.status_eq (h : AgreeOnRunning config listing.present)
    (h_reorder : listing.Reorders listing') :
    (getComposeStackStatus config listing').status =
      (getComposeStackStatus config listing).status := by
  have h_perm := h_reorder.perm
  have h_names : (serviceNames config.declared listing'.present).Perm
      (serviceNames config.declared listing.present) := by
    apply (List.perm_ext_iff_of_nodup (nodup_serviceNames config.nodup_declared _)
      (nodup_serviceNames config.nodup_declared _)).mpr
    exact fun name => mem_serviceNames_perm h_perm
  have h_count : ((serviceNames config.declared listing'.present).filter fun name =>
      (serviceStatus config listing'.present name).up).length =
      ((serviceNames config.declared listing.present).filter fun name =>
        (serviceStatus config listing.present name).up).length := by
    calc
      _ = ((serviceNames config.declared listing'.present).filter fun name =>
          (serviceStatus config listing.present name).up).length := by
        congr 1
        apply List.filter_congr
        intro name h_name
        exact h.up_perm h_perm ((mem_serviceNames_perm h_perm).mp h_name)
      _ = _ := (h_names.filter _).length_eq
  rw [getComposeStackStatus, getComposeStackStatus]
  dsimp only
  rw [upCount_eq, upCount_eq, h_count, List.length_map, List.length_map, h_names.length_eq,
    h_perm.length_eq]

/-- **The status of a stack** does not depend on the order in which docker lists the
containers, and shows each service with a running container as up, exactly if the containers
of each service agree on whether they run. -/
theorem stack_status_iff (config : ComposeConfig) (listing : DockerListing) :
    OrderFree config listing ↔ AgreeOnRunning config listing.present := by
  constructor
  · intro h
    -- a stopped container that comes last hides the running one
    have h_hidden : ∀ e ∈ listing.present, ∀ e' ∈ listing.present, e.service = e'.service →
        e.service ≠ "" ∨ e.service ∈ config.declared → e.state = some "running" →
        e'.state = some "running" := by
      intro e h_e e' h_e' h_service h_named h_running
      have h_name : e.service ∈ serviceNames config.declared listing.present := by
        apply mem_serviceNames.mpr
        by_cases h_declared : e.service ∈ config.declared
        · exact .inl h_declared
        · exact .inr ⟨h_named.resolve_right h_declared, e, h_e, rfl⟩
      have h_up := h.running e h_e h_running (by rwa [services_names])
      obtain ⟨listing', init, h_reorder, h_last⟩ := DockerListing.exists_last h_e'
      obtain ⟨-, h_up'⟩ := ComposeStackStatus.up_iff.mp ((h.up listing' h_reorder e.service).mpr h_up)
      rw [serviceStatus_up_iff, h_last, h_service, byService_last] at h_up'
      obtain ⟨found, h_found, h_state⟩ := h_up'
      rwa [← Option.some.inj h_found] at h_state
    intro e h_e e' h_e' h_service h_named
    exact ⟨h_hidden e h_e e' h_e' h_service h_named,
      h_hidden e' h_e' e h_e h_service.symm (h_service ▸ h_named)⟩
  · intro h
    constructor
    case status => exact fun listing' h_reorder => h.status_eq h_reorder
    case services =>
      intro listing' h_reorder name
      rw [services_names, services_names]
      exact mem_serviceNames_perm h_reorder.perm
    case up =>
      intro listing' h_reorder name
      have h_names : name ∈ serviceNames config.declared listing'.present ↔
          name ∈ serviceNames config.declared listing.present :=
        mem_serviceNames_perm h_reorder.perm
      rw [ComposeStackStatus.up_iff, ComposeStackStatus.up_iff, h_names]
      apply and_congr_right
      intro h_name
      rw [h.up_perm h_reorder.perm h_name]
    case running =>
      intro e h_e h_running h_name
      rw [services_names] at h_name
      exact ComposeStackStatus.up_iff.mpr ⟨h_name, (h.up_iff h_name).mpr ⟨e, h_e, rfl, h_running⟩⟩

end Status

/-- A container of the service `web`. -/
def webContainer (id state : String) : ComposePsEntry :=
  ⟨some id, "web", some "nginx", some state, [], none⟩

/-- A running container and a one-off run that has exited: the stack is running in one order
and stopped in the other. -/
theorem order_matters :
    ∃ config listing listing', listing.Reorders listing' ∧
      (getComposeStackStatus config listing).status = .running ∧
      (getComposeStackStatus config listing').status = .stopped ∧ ¬ OrderFree config listing := by
  let config : ComposeConfig := ⟨some ⟨[("web", some "nginx")], by decide⟩, none⟩
  let up := webContainer "a1" "running"
  let exited := webContainer "b2" "exited"
  have h_reorder : DockerListing.Reorders (.compose [exited, up]) (.compose [up, exited]) :=
    .compose (.swap up exited [])
  have h_running : (getComposeStackStatus config (.compose [exited, up])).status = .running := by
    decide +kernel
  have h_stopped : (getComposeStackStatus config (.compose [up, exited])).status = .stopped := by
    decide +kernel
  refine ⟨config, _, _, h_reorder, h_running, h_stopped, fun h => ?_⟩
  have h_same := h.status _ h_reorder
  rw [h_running, h_stopped] at h_same
  exact absurd h_same (by decide)

end ServerCentral.Compose
