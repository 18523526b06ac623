import ServerCentral.Framework.UriText

/-!
# Deep links

The web client keeps the view it shows in the hash of its location. `routeToHash` writes a route as
segments of a path and a query, in two encodings, and `hashToRoute` reads a hash.

`deep_link` is the round trip. A route comes back with its defaults filled in and without what does
not belong to its tab and section; an empty text is none. In the browser of a volume no folder is
filled in, for there the folder that is not given is the mountpoint of the volume.
-/

open Framework

namespace ServerCentral.Web

abbrev Text := List Char

inductive ServerTab where
  | overview | files | docker | processes | network | services | users | zfs | mounts | terminal
  deriving DecidableEq, Repr

inductive DockerSection where
  | overview | stacks | containers | volumes | images
  deriving DecidableEq, Repr

inductive ZfsSection where
  | pools | datasets | snapshots
  deriving DecidableEq, Repr

inductive ComposeStackTab where
  | overview | compose | files | logs
  deriving DecidableEq, Repr

def ServerTab.id : ServerTab → Text
  | .overview => "overview".toList
  | .files => "files".toList
  | .docker => "docker".toList
  | .processes => "processes".toList
  | .network => "network".toList
  | .services => "services".toList
  | .users => "users".toList
  | .zfs => "zfs".toList
  | .mounts => "mounts".toList
  | .terminal => "terminal".toList

def DockerSection.id : DockerSection → Text
  | .overview => "overview".toList
  | .stacks => "stacks".toList
  | .containers => "containers".toList
  | .volumes => "volumes".toList
  | .images => "images".toList

def ZfsSection.id : ZfsSection → Text
  | .pools => "pools".toList
  | .datasets => "datasets".toList
  | .snapshots => "snapshots".toList

def ComposeStackTab.id : ComposeStackTab → Text
  | .overview => "overview".toList
  | .compose => "compose".toList
  | .files => "files".toList
  | .logs => "logs".toList

def TAB_IDS : List ServerTab :=
  [.overview, .files, .docker, .zfs, .mounts, .processes, .network, .services, .users, .terminal]

def DOCKER_SECTIONS : List DockerSection := [.overview, .stacks, .containers, .volumes, .images]

def ZFS_SECTIONS : List ZfsSection := [.pools, .datasets, .snapshots]

def STACK_TAB_IDS : List ComposeStackTab := [.overview, .compose, .files, .logs]

/-- The one of these that a segment names, or the default. -/
def named {α : Type} (id : α → Text) (all : List α) (default : α) (seg : Option Text) : α :=
  (seg.bind fun seg => all.find? fun a => id a = seg).getD default

/-- What a route says of a server. -/
structure ServerRoute where
  serverId : Text
  tab : ServerTab
  /-- Docker tab only: active sub-section. Defaults to "overview". -/
  dockerSection : Option DockerSection := none
  /-- Docker tab, volumes section only: the volume being browsed. -/
  volume : Option Text := none
  /-- Docker tab, stacks section only: the registered compose stack being viewed. -/
  stackId : Option Text := none
  /-- Docker tab, stack detail only: active tab. Defaults to "overview". -/
  stackTab : Option ComposeStackTab := none
  /-- Files tab / volume browser: current folder. -/
  path : Option Text := none
  /-- Files tab / volume browser: path of the open file, if any. -/
  file : Option Text := none
  /-- Docker tab, containers section only: initial filter. -/
  filter : Option Text := none
  /-- Docker tab, containers section only: compose project the list is scoped to. -/
  stack : Option Text := none
  /-- Docker tab, containers section only: container whose detail view is open. -/
  containerId : Option Text := none
  /-- ZFS tab only: active sub-section. Defaults to "pools". -/
  zfsSection : Option ZfsSection := none
  deriving DecidableEq, Repr

inductive Route where
  | dashboard
  | agents
  | proxy
  | tasks
  | settings
  | server (route : ServerRoute)
  deriving DecidableEq, Repr

/-! ### Writing a hash -/

/-- An empty text is no text. -/
def given (text : Option Text) : Option Text := text.filter (· ≠ [])

/-- The names of the folders on a path. -/
def folders (path : Text) : List Text := (path.splitOn '/').filter (· ≠ [])

/-- Encode a path's segments. -/
def encodePath (path : Text) : Text := join '/' ((folders path).map encodeURIComponent)

def pathPart (path : Option Text) : Text :=
  let encoded := ((given path).map encodePath).getD []
  if encoded = [] then [] else '/' :: encoded

def filePart (file : Option Text) : Text :=
  ((given file).map fun file => '?' :: 'f' :: '=' :: encodeURIComponent file).getD []

def idPart (id : Option Text) : Text :=
  ((given id).map fun id => '/' :: encodeURIComponent id).getD []

/-- The query of the list of containers. -/
def containerPairs (stack filter : Option Text) : List (Text × Text) :=
  ((given stack).map fun stack => (['s'], stack)).toList ++
    ((given filter).map fun filter => (['q'], filter)).toList

def containerQuery (stack filter : Option Text) : Text :=
  let encoded := searchText (containerPairs stack filter)
  if encoded = [] then [] else '?' :: encoded

def ServerRoute.toHash (r : ServerRoute) : Text :=
  let hash := "#/server/".toList ++ encodeURIComponent r.serverId ++ '/' :: r.tab.id
  match r.tab with
  | .files => hash ++ pathPart r.path ++ filePart r.file
  | .docker =>
    let hash := hash ++ '/' :: (r.dockerSection.getD .overview).id
    match r.dockerSection with
    | some .stacks =>
      match given r.stackId with
      | some stackId =>
        hash ++ '/' :: encodeURIComponent stackId ++ '/' :: (r.stackTab.getD .overview).id
      | none => hash
    | some .containers => hash ++ idPart r.containerId ++ containerQuery r.stack r.filter
    | some .volumes =>
      match given r.volume with
      | some volume => hash ++ '/' :: encodeURIComponent volume ++ pathPart r.path ++ filePart r.file
      | none => hash
    | _ => hash
  | .zfs => hash ++ '/' :: (r.zfsSection.getD .pools).id
  | _ => hash

/-- Serialize a route to a location hash. -/
def routeToHash : Route → Text
  | .dashboard => "#/".toList
  | .agents => "#/agents".toList
  | .proxy => "#/proxy".toList
  | .tasks => "#/tasks".toList
  | .settings => "#/settings".toList
  | .server r => r.toHash

/-! ### Reading a hash -/

def dockerRoute (serverId : Text) (segs : List Text) (queryPart : Text) : Option ServerRoute :=
  let dockerSection := named DockerSection.id DOCKER_SECTIONS .overview segs[3]?
  match dockerSection, segs[4]? with
  | .volumes, some seg => do
    let volume ← decodeURIComponent seg
    let path ← if segs.length > 5
      then ((segs.drop 5).mapM decodeURIComponent).map fun parts => some ('/' :: join '/' parts)
      else some none
    let file := searchGet queryPart ['f']
    some { serverId, tab := .docker, dockerSection := some .volumes, volume := some volume, path, file }
  | .stacks, some seg => do
    let stackId ← decodeURIComponent seg
    let stackTab := some (named ComposeStackTab.id STACK_TAB_IDS .overview segs[5]?)
    some { serverId, tab := .docker, dockerSection := some .stacks, stackId := some stackId, stackTab }
  | .containers, seg => do
    let filter := searchGet queryPart ['q']
    let stack := searchGet queryPart ['s']
    let containerId ← seg.mapM decodeURIComponent
    some { serverId, tab := .docker, dockerSection := some .containers, filter, stack, containerId }
  | dockerSection, _ => some { serverId, tab := .docker, dockerSection := some dockerSection }

/-- A route to a server. `none` is a `URIError`. -/
def serverRoute (segs : List Text) (seg : Text) (queryPart : Text) : Option ServerRoute := do
  let serverId ← decodeURIComponent seg
  match named ServerTab.id TAB_IDS .overview segs[2]? with
  | .files => do
    let parts ← (segs.drop 3).mapM decodeURIComponent
    let file := searchGet queryPart ['f']
    some { serverId, tab := .files, path := some ('/' :: join '/' parts), file }
  | .docker => dockerRoute serverId segs queryPart
  | .zfs =>
    let zfsSection := some (named ZfsSection.id ZFS_SECTIONS .pools segs[3]?)
    some { serverId, tab := .zfs, zfsSection }
  | tab => some { serverId, tab }

def routeOf (segs : List Text) (queryPart : Text) : Option Route :=
  if segs = [] then some .dashboard
  else if segs[0]? = some "agents".toList then some .agents
  else if segs[0]? = some "proxy".toList then some .proxy
  else if segs[0]? = some "tasks".toList then some .tasks
  else if segs[0]? = some "settings".toList then some .settings
  else if segs[0]? = some "server".toList then match segs[1]? with
    | some seg => (serverRoute segs seg queryPart).map .server
    | none => some .dashboard
  else some .dashboard

/-- Parse a location hash back into a route, falling back to the dashboard. -/
def hashToRoute (hash : Text) : Option Route :=
  let parts := (if hash.head? = some '#' then hash.tail else hash).splitOn '?'
  routeOf (folders (parts.headD [])) (parts.getD 1 [])

/-! ### What comes back -/

/-- One leading slash, and no empty segments. -/
def normalPath (path : Text) : Text := '/' :: join '/' (folders path)

/-- The defaults filled in, and what does not belong to the tab and the section left out. -/
def ServerRoute.normal (r : ServerRoute) : ServerRoute :=
  let base : ServerRoute := { serverId := r.serverId, tab := r.tab }
  match r.tab with
  | .files => { base with path := some (normalPath (r.path.getD [])), file := given r.file }
  | .docker =>
    let base := { base with dockerSection := some (r.dockerSection.getD .overview) }
    match r.dockerSection with
    | some .stacks =>
      match given r.stackId with
      | some _ =>
        { base with stackId := r.stackId, stackTab := some (r.stackTab.getD .overview) }
      | none => base
    | some .containers =>
      { base with
        filter := given r.filter
        stack := given r.stack
        containerId := given r.containerId }
    | some .volumes =>
      match given r.volume with
      | some _ =>
        { base with volume := r.volume, path := r.path.map normalPath, file := given r.file }
      | none => base
    | _ => base
  | .zfs => { base with zfsSection := some (r.zfsSection.getD .pools) }
  | _ => base

def Route.normal : Route → Route
  | .server r => .server r.normal
  | route => route

/-- A server has an id, and the folder shown in the browser of a volume a name. -/
structure ServerRoute.Linkable (r : ServerRoute) : Prop where
  serverId : r.serverId ≠ []
  folder : r.tab = .docker → r.dockerSection = some .volumes → ∀ path, r.path = some path →
    folders path ≠ []

/-! ### Segments -/

/-- A segment of a written path. -/
structure Segment (seg : Text) : Prop where
  some : seg ≠ []
  slash : '/' ∉ seg
  query : '?' ∉ seg

theorem segment_encode {text : Text} (h : text ≠ []) : Segment (encodeURIComponent text) where
  some := percentEncode_ne_nil h
  slash := notMem_encodeURIComponent (by decide) (by decide) text
  query := notMem_encodeURIComponent (by decide) (by decide) text

theorem segment_tab (tab : ServerTab) : Segment tab.id := by
  cases tab <;> exact ⟨by decide, by decide, by decide⟩

theorem segment_section (dockerSection : DockerSection) : Segment dockerSection.id := by
  cases dockerSection <;> exact ⟨by decide, by decide, by decide⟩

theorem segment_zfs (zfsSection : ZfsSection) : Segment zfsSection.id := by
  cases zfsSection <;> exact ⟨by decide, by decide, by decide⟩

theorem segment_stackTab (tab : ComposeStackTab) : Segment tab.id := by
  cases tab <;> exact ⟨by decide, by decide, by decide⟩

theorem named_tab (tab default : ServerTab) : named ServerTab.id TAB_IDS default (some tab.id) = tab := by
  cases tab <;> rfl

theorem named_section (dockerSection default : DockerSection) :
    named DockerSection.id DOCKER_SECTIONS default (some dockerSection.id) = dockerSection := by
  cases dockerSection <;> rfl

theorem named_zfs (zfsSection default : ZfsSection) :
    named ZfsSection.id ZFS_SECTIONS default (some zfsSection.id) = zfsSection := by
  cases zfsSection <;> rfl

theorem named_stackTab (tab default : ComposeStackTab) :
    named ComposeStackTab.id STACK_TAB_IDS default (some tab.id) = tab := by
  cases tab <;> rfl

/-- Segments with a slash before each. -/
def slashes (segs : List Text) : Text := segs.flatMap ('/' :: ·)

theorem slashes_eq (segs : List Text) : slashes segs = join '/' ([] :: segs) := by
  induction segs with
  | nil => rfl
  | cons seg segs ih =>
    rw [slashes, List.flatMap_cons, ← slashes, ih, join_cons_cons, List.nil_append]
    cases segs with
    | nil => simp
    | cons next segs => simp

theorem slash_join {parts : List Text} (h : parts ≠ []) : '/' :: join '/' parts = slashes parts := by
  obtain ⟨part, rest, rfl⟩ := List.exists_cons_of_ne_nil h
  rw [slashes_eq, join_cons_cons, List.nil_append]

theorem folders_slashes {segs : List Text} (h : ∀ seg ∈ segs, Segment seg) :
    folders (slashes segs) = segs := by
  have h_parts : ∀ part ∈ ([] : Text) :: segs, '/' ∉ part := by
    intro part h_part
    obtain rfl | h_part := List.mem_cons.mp h_part
    · exact List.not_mem_nil
    · exact (h part h_part).slash
  rw [folders, slashes_eq, splitOn_join (List.cons_ne_nil _ _) h_parts,
    List.filter_cons_of_neg (by simp)]
  exact List.filter_eq_self.mpr fun seg h_seg => decide_eq_true (h seg h_seg).some

theorem segment_folder {path folder : Text} (h : folder ∈ folders path) : folder ≠ [] :=
  of_decide_eq_true (List.mem_filter.mp h).2

theorem given_some {text : Text} (h : text ≠ []) : given (some text) = some text := by
  rw [given, Option.filter_some, if_pos (decide_eq_true h)]

/-- A path is written segment by segment. -/
theorem pathPart_eq (path : Option Text) :
    pathPart path = slashes ((folders (path.getD [])).map encodeURIComponent) := by
  have h_given : ((given path).map encodePath).getD [] = encodePath (path.getD []) := by
    cases path with
    | none => rfl
    | some path =>
      by_cases h : path = []
      · rw [h]
        rfl
      · rw [given_some h]
        rfl
  have h_parts : ∀ part ∈ (folders (path.getD [])).map encodeURIComponent, part ≠ [] := by
    intro part h_part
    obtain ⟨folder, h_folder, rfl⟩ := List.mem_map.mp h_part
    exact percentEncode_ne_nil (segment_folder h_folder)
  rw [pathPart, h_given, encodePath]
  split
  next h_nil =>
    rw [(join_eq_nil h_parts).mp h_nil]
    rfl
  next h_some => exact slash_join fun h_nil => h_some (by rw [h_nil, join_nil])

/-- **Reading what is written** of segments and a query. -/
theorem hashToRoute_written {segs : List Text} (h : ∀ seg ∈ segs, Segment seg)
    (query : Option Text) (h_query : ∀ text ∈ query, '?' ∉ text) :
    hashToRoute ('#' :: (slashes segs ++ (query.map ('?' :: ·)).getD [])) =
      routeOf segs (query.getD []) := by
  have h_path : '?' ∉ slashes segs := by
    intro h_mem
    obtain ⟨seg, h_seg, h_mem⟩ := List.mem_flatMap.mp h_mem
    exact (h seg h_seg).query (List.mem_of_ne_of_mem (by decide) h_mem)
  have h_split : ∀ parts : List Text, parts ≠ [] → (∀ part ∈ parts, '?' ∉ part) →
      slashes segs ++ (query.map ('?' :: ·)).getD [] = join '?' parts →
      hashToRoute ('#' :: (slashes segs ++ (query.map ('?' :: ·)).getD [])) =
        routeOf (folders (parts.headD [])) (parts.getD 1 []) := by
    intro parts h_parts h_part h_text
    rw [hashToRoute, List.head?_cons, if_pos rfl, List.tail_cons, h_text, splitOn_join h_parts h_part]
  cases query with
  | none =>
    rw [h_split [slashes segs] (by simp) (by simpa using h_path) (by simp)]
    exact congrArg (fun parts => routeOf parts []) (folders_slashes h)
  | some text =>
    have h_text := h_query text rfl
    rw [h_split [slashes segs, text] (by simp) (by simp [h_path, h_text]) (by simp)]
    exact congrArg (fun parts => routeOf parts text) (folders_slashes h)

/-! ### Queries -/

theorem searchGet_file (file : Option Text) :
    searchGet (((given file).map fun file => 'f' :: '=' :: encodeURIComponent file).getD []) ['f'] =
      given file := by
  cases given file with
  | none => rfl
  | some file =>
    have h_plain : ∀ piece ∈ [(['f'], encodeURIComponent file)], '&' ∉ piece.1 ∧ '&' ∉ piece.2 ∧
        '=' ∉ piece.1 ∧ piece.1.head? ≠ some '?' := by
      intro piece h_piece
      rw [List.mem_singleton.mp h_piece]
      exact ⟨by simp, notMem_encodeURIComponent (by decide) (by decide) file, by simp, by simp⟩
    have h_pairs := searchPairs_join h_plain
    have h_name : formDecode ['f'] = ['f'] := by decide
    rw [List.map_singleton, join_singleton, List.map_singleton, formDecode_uri, h_name] at h_pairs
    show ((searchPairs (['f'] ++ '=' :: encodeURIComponent file)).find? _).map Prod.snd = _
    rw [h_pairs]
    rfl

theorem searchGet_containers (stack filter : Option Text) :
    searchGet (searchText (containerPairs stack filter)) ['s'] = given stack ∧
      searchGet (searchText (containerPairs stack filter)) ['q'] = given filter := by
  rw [searchGet, searchGet, searchPairs_text, containerPairs]
  cases given stack with
  | none => cases given filter <;> exact ⟨rfl, rfl⟩
  | some stack => cases given filter <;> exact ⟨rfl, rfl⟩

theorem notMem_searchText (pairs : List (Text × Text)) : '?' ∉ searchText pairs := by
  intro h_mem
  obtain h_eq | ⟨part, h_part, h_mem⟩ := mem_join h_mem
  · exact absurd h_eq (by decide)
  · obtain ⟨pair, -, rfl⟩ := List.mem_map.mp h_part
    have h_form : ∀ text, '?' ∉ formEncode text :=
      notMem_formEncode (by decide) (by decide) (by decide)
    obtain h_mem | h_mem := List.mem_append.mp h_mem
    · exact h_form _ h_mem
    · exact h_form _ (List.mem_of_ne_of_mem (by decide) h_mem)

/-! ### The round trip -/

theorem slashes_append (segs rest : List Text) :
    slashes (segs ++ rest) = slashes segs ++ slashes rest :=
  List.flatMap_append

theorem idPart_eq (id : Option Text) :
    idPart id = slashes ((given id).map encodeURIComponent).toList := by
  rw [idPart]
  cases given id with
  | none => rfl
  | some id => simp [slashes]

theorem filePart_eq (file : Option Text) : filePart file =
    (((given file).map fun file => 'f' :: '=' :: encodeURIComponent file).map ('?' :: ·)).getD [] := by
  rw [filePart, Option.map_map]
  rfl

theorem containerQuery_eq (stack filter : Option Text) : containerQuery stack filter =
    ((given (some (searchText (containerPairs stack filter)))).map ('?' :: ·)).getD [] := by
  rw [containerQuery]
  by_cases h : searchText (containerPairs stack filter) = []
  · rw [if_pos h, h]
    rfl
  · rw [if_neg h, given_some h]
    rfl

/-- The segments every route to a server begins with. -/
def serverSegs (serverId : Text) (tab : ServerTab) : List Text :=
  ["server".toList, encodeURIComponent serverId, tab.id]

theorem hash_start (serverId : Text) (tab : ServerTab) :
    "#/server/".toList ++ encodeURIComponent serverId ++ '/' :: tab.id =
      '#' :: slashes (serverSegs serverId tab) := by
  have h_start : "#/server/".toList = '#' :: '/' :: "server".toList ++ ['/'] := rfl
  rw [h_start]
  simp [slashes, serverSegs]

/-- **A written route to a server** is read from its segments and its query. -/
theorem hashToRoute_server {serverId : Text} (h_id : serverId ≠ []) (tab : ServerTab)
    {rest : List Text} (h_rest : ∀ seg ∈ rest, Segment seg) {query : Option Text}
    (h_query : ∀ text ∈ query, '?' ∉ text) {hash : Text}
    (h_hash : hash = '#' :: slashes (serverSegs serverId tab) ++ slashes rest ++
      (query.map ('?' :: ·)).getD []) :
    hashToRoute hash = (serverRoute (serverSegs serverId tab ++ rest) (encodeURIComponent serverId)
      (query.getD [])).map .server := by
  have h_segs : ∀ seg ∈ serverSegs serverId tab ++ rest, Segment seg := by
    intro seg h_seg
    obtain h_seg | h_seg := List.mem_append.mp h_seg
    · simp only [serverSegs, List.mem_cons, List.not_mem_nil, or_false] at h_seg
      obtain rfl | rfl | rfl := h_seg
      · exact ⟨by decide, by decide, by decide⟩
      · exact segment_encode h_id
      · exact segment_tab tab
    · exact h_rest seg h_seg
  have h_written := hashToRoute_written h_segs query h_query
  rw [slashes_append] at h_written
  rw [h_hash, List.cons_append, List.cons_append, h_written]
  rfl

/-- Folders are written as segments. -/
theorem segment_folders (path : Text) :
    ∀ seg ∈ (folders path).map encodeURIComponent, Segment seg := by
  intro seg h_seg
  obtain ⟨folder, h_folder, rfl⟩ := List.mem_map.mp h_seg
  exact segment_encode (segment_folder h_folder)

theorem query_file (file : Option Text) :
    ∀ text ∈ (given file).map fun file => 'f' :: '=' :: encodeURIComponent file, '?' ∉ text := by
  intro text h_text
  obtain ⟨name, -, rfl⟩ := Option.map_eq_some_iff.mp h_text
  have h_name : '?' ∉ encodeURIComponent name :=
    notMem_encodeURIComponent (by decide) (by decide) name
  simp [h_name]

/-! ### Reading the segments -/

section Segments

variable (serverId : Text) (query : Text)

/-- The tab of a route is read back. -/
theorem named_serverSegs (tab : ServerTab) (rest : List Text) :
    named ServerTab.id TAB_IDS .overview (serverSegs serverId tab ++ rest)[2]? = tab :=
  named_tab tab .overview

theorem serverRoute_files (parts : List Text) :
    serverRoute (serverSegs serverId .files ++ parts.map encodeURIComponent)
      (encodeURIComponent serverId) query =
        some { serverId, tab := .files, path := some ('/' :: join '/' parts)
               file := searchGet query ['f'] } := by
  have h_drop : (serverSegs serverId .files ++ parts.map encodeURIComponent).drop 3 =
      parts.map encodeURIComponent := rfl
  rw [serverRoute, decodeURIComponent_encode, named_serverSegs, h_drop, mapM_decodeURIComponent]
  rfl

theorem serverRoute_docker (rest : List Text) :
    serverRoute (serverSegs serverId .docker ++ rest) (encodeURIComponent serverId) query =
      dockerRoute serverId (serverSegs serverId .docker ++ rest) query := by
  rw [serverRoute, decodeURIComponent_encode, named_serverSegs]
  rfl

theorem serverRoute_zfs (zfsSection : ZfsSection) :
    serverRoute (serverSegs serverId .zfs ++ [zfsSection.id]) (encodeURIComponent serverId) query =
      some { serverId, tab := .zfs, zfsSection := some zfsSection } := by
  have h_section : (serverSegs serverId .zfs ++ [zfsSection.id])[3]? = some zfsSection.id := rfl
  rw [serverRoute, decodeURIComponent_encode, named_serverSegs, h_section, named_zfs]
  rfl

/-- The section of a route is read back. -/
theorem named_section_segs (dockerSection : DockerSection) (rest : List Text) :
    named DockerSection.id DOCKER_SECTIONS .overview
      (serverSegs serverId .docker ++ dockerSection.id :: rest)[3]? = dockerSection :=
  named_section dockerSection .overview

theorem dockerRoute_volumes (volume : Text) (parts : List Text) :
    dockerRoute serverId (serverSegs serverId .docker ++
      DockerSection.volumes.id :: encodeURIComponent volume :: parts.map encodeURIComponent) query =
        some { serverId, tab := .docker, dockerSection := some .volumes, volume := some volume
               path := if parts = [] then none else some ('/' :: join '/' parts)
               file := searchGet query ['f'] } := by
  have h_seg : (serverSegs serverId .docker ++ DockerSection.volumes.id ::
      encodeURIComponent volume :: parts.map encodeURIComponent)[4]? =
        some (encodeURIComponent volume) := rfl
  have h_drop : (serverSegs serverId .docker ++ DockerSection.volumes.id ::
      encodeURIComponent volume :: parts.map encodeURIComponent).drop 5 =
        parts.map encodeURIComponent := rfl
  rw [dockerRoute, named_section_segs, h_seg]
  dsimp only
  rw [decodeURIComponent_encode, h_drop, mapM_decodeURIComponent]
  cases parts with
  | nil => rfl
  | cons part parts =>
    have h_length : (serverSegs serverId .docker ++ DockerSection.volumes.id ::
        encodeURIComponent volume :: (part :: parts).map encodeURIComponent).length > 5 := by
      simp [serverSegs]
    rw [Option.bind_eq_bind, Option.bind_some, if_pos h_length]
    rfl

theorem dockerRoute_stacks (stackId : Text) (tab : ComposeStackTab) :
    dockerRoute serverId (serverSegs serverId .docker ++
      [DockerSection.stacks.id, encodeURIComponent stackId, tab.id]) query =
        some { serverId, tab := .docker, dockerSection := some .stacks, stackId := some stackId
               stackTab := some tab } := by
  have h_seg : (serverSegs serverId .docker ++
      [DockerSection.stacks.id, encodeURIComponent stackId, tab.id])[4]? =
        some (encodeURIComponent stackId) := rfl
  have h_tab : (serverSegs serverId .docker ++
      [DockerSection.stacks.id, encodeURIComponent stackId, tab.id])[5]? = some tab.id := rfl
  rw [dockerRoute, named_section_segs, h_seg, h_tab]
  dsimp only
  rw [decodeURIComponent_encode, named_stackTab]
  rfl

theorem dockerRoute_containers (containerId : Option Text) :
    dockerRoute serverId (serverSegs serverId .docker ++
      DockerSection.containers.id :: (containerId.map encodeURIComponent).toList) query =
        some { serverId, tab := .docker, dockerSection := some .containers
               filter := searchGet query ['q']
               stack := searchGet query ['s']
               containerId } := by
  have h_seg : (serverSegs serverId .docker ++
      DockerSection.containers.id :: (containerId.map encodeURIComponent).toList)[4]? =
        containerId.map encodeURIComponent := by
    cases containerId <;> rfl
  rw [dockerRoute, named_section_segs, h_seg]
  dsimp only
  cases containerId with
  | none => rfl
  | some containerId =>
    rw [Option.map_some, Option.mapM_some, decodeURIComponent_encode]
    rfl

/-- A section without anything more. -/
theorem dockerRoute_section {dockerSection : DockerSection} (h : dockerSection ≠ .containers) :
    dockerRoute serverId (serverSegs serverId .docker ++ [dockerSection.id]) query =
      some { serverId, tab := .docker, dockerSection := some dockerSection } := by
  have h_seg : (serverSegs serverId .docker ++ [dockerSection.id])[4]? = none := rfl
  rw [dockerRoute, named_section_segs, h_seg]
  cases dockerSection with
  | containers => exact absurd rfl h
  | _ => rfl

end Segments

/-! ### The round trip -/

section RoundTrip

variable {r : ServerRoute}

/-- **The files tab.** -/
theorem deep_link_files (h : r.Linkable) (h_tab : r.tab = .files) :
    hashToRoute r.toHash = some (.server r.normal) := by
  have h_hash : r.toHash = '#' :: slashes (serverSegs r.serverId .files) ++
      slashes ((folders (r.path.getD [])).map encodeURIComponent) ++
      (((given r.file).map fun file => 'f' :: '=' :: encodeURIComponent file).map ('?' :: ·)).getD [] := by
    rw [ServerRoute.toHash, h_tab, hash_start, pathPart_eq, filePart_eq]
  have h_segs := segment_folders (r.path.getD [])
  rw [hashToRoute_server h.serverId .files h_segs (query_file r.file) h_hash, serverRoute_files,
    searchGet_file, ServerRoute.normal, h_tab]
  rfl

/-- **The other tabs without a query.** -/
theorem deep_link_zfs (h : r.Linkable) (h_tab : r.tab = .zfs) :
    hashToRoute r.toHash = some (.server r.normal) := by
  have h_hash : r.toHash = '#' :: slashes (serverSegs r.serverId .zfs) ++
      slashes [(r.zfsSection.getD .pools).id] ++ ((none : Option Text).map ('?' :: ·)).getD [] := by
    rw [ServerRoute.toHash, h_tab, hash_start]
    simp [slashes]
  have h_segs : ∀ seg ∈ [(r.zfsSection.getD .pools).id], Segment seg := by
    intro seg h_seg
    rw [List.mem_singleton.mp h_seg]
    exact segment_zfs _
  rw [hashToRoute_server h.serverId .zfs h_segs (by simp) h_hash, serverRoute_zfs,
    ServerRoute.normal, h_tab]
  rfl

theorem deep_link_plain (h : r.Linkable) (h_files : r.tab ≠ .files) (h_docker : r.tab ≠ .docker)
    (h_zfs : r.tab ≠ .zfs) : hashToRoute r.toHash = some (.server r.normal) := by
  have h_toHash : r.toHash = "#/server/".toList ++ encodeURIComponent r.serverId ++ '/' :: r.tab.id := by
    rw [ServerRoute.toHash]
    split
    · exact absurd ‹_› h_files
    · exact absurd ‹_› h_docker
    · exact absurd ‹_› h_zfs
    · rfl
  have h_hash : r.toHash = '#' :: slashes (serverSegs r.serverId r.tab) ++ slashes [] ++
      ((none : Option Text).map ('?' :: ·)).getD [] := by
    rw [h_toHash, hash_start]
    simp [slashes]
  have h_normal : r.normal = { serverId := r.serverId, tab := r.tab } := by
    rw [ServerRoute.normal]
    split
    · exact absurd ‹_› h_files
    · exact absurd ‹_› h_docker
    · exact absurd ‹_› h_zfs
    · rfl
  rw [hashToRoute_server h.serverId r.tab (by simp) (by simp) h_hash, serverRoute,
    decodeURIComponent_encode, named_serverSegs, h_normal, Option.bind_eq_bind, Option.bind_some]
  split
  · exact absurd ‹_› h_files
  · exact absurd ‹_› h_docker
  · exact absurd ‹_› h_zfs
  · rfl

/-- What is written of a section, when nothing follows it. -/
theorem deep_link_section (h : r.Linkable) {dockerSection : DockerSection}
    (h_containers : dockerSection ≠ .containers)
    (h_toHash : r.toHash = "#/server/".toList ++ encodeURIComponent r.serverId ++
      '/' :: ServerTab.docker.id ++ '/' :: dockerSection.id) :
    hashToRoute r.toHash = some (.server
      { serverId := r.serverId, tab := .docker, dockerSection := some dockerSection }) := by
  have h_hash : r.toHash = '#' :: slashes (serverSegs r.serverId .docker) ++
      slashes [dockerSection.id] ++ ((none : Option Text).map ('?' :: ·)).getD [] := by
    rw [h_toHash, hash_start]
    simp [slashes]
  have h_segs : ∀ seg ∈ [dockerSection.id], Segment seg := by
    intro seg h_seg
    rw [List.mem_singleton.mp h_seg]
    exact segment_section _
  rw [hashToRoute_server h.serverId .docker h_segs (by simp) h_hash, serverRoute_docker,
    dockerRoute_section _ _ h_containers]
  rfl

/-- **The browser of a volume.** -/
theorem deep_link_volume (h : r.Linkable) (h_tab : r.tab = .docker)
    (h_section : r.dockerSection = some .volumes) {volume : Text} (h_volume : given r.volume = some volume) :
    hashToRoute r.toHash = some (.server r.normal) := by
  obtain ⟨h_stored, h_some⟩ := Option.filter_eq_some_iff.mp h_volume
  have h_some : volume ≠ [] := of_decide_eq_true h_some
  have h_hash : r.toHash = '#' :: slashes (serverSegs r.serverId .docker) ++
      slashes (DockerSection.volumes.id :: encodeURIComponent volume ::
        (folders (r.path.getD [])).map encodeURIComponent) ++
      (((given r.file).map fun file => 'f' :: '=' :: encodeURIComponent file).map ('?' :: ·)).getD [] := by
    rw [ServerRoute.toHash, h_tab, h_section, hash_start]
    simp only [h_volume, pathPart_eq, filePart_eq, Option.getD_some]
    simp [slashes]
  have h_segs : ∀ seg ∈ DockerSection.volumes.id :: encodeURIComponent volume ::
      (folders (r.path.getD [])).map encodeURIComponent, Segment seg := by
    intro seg h_seg
    obtain rfl | h_seg := List.mem_cons.mp h_seg
    · exact segment_section _
    obtain rfl | h_seg := List.mem_cons.mp h_seg
    · exact segment_encode h_some
    · exact segment_folders _ seg h_seg
  -- the folder of a linkable route has a segment
  have h_path : (if folders (r.path.getD []) = [] then none
      else some ('/' :: join '/' (folders (r.path.getD [])))) = r.path.map normalPath := by
    cases h_eq : r.path with
    | none => rfl
    | some path => exact if_neg (h.folder h_tab h_section path h_eq)
  rw [hashToRoute_server h.serverId .docker h_segs (query_file r.file) h_hash, serverRoute_docker,
    dockerRoute_volumes, searchGet_file, h_path, ServerRoute.normal, h_tab, h_section]
  simp only [h_stored, given_some h_some]
  rfl

/-- **A stack.** -/
theorem deep_link_stack (h : r.Linkable) (h_tab : r.tab = .docker)
    (h_section : r.dockerSection = some .stacks) {stackId : Text} (h_stack : given r.stackId = some stackId) :
    hashToRoute r.toHash = some (.server r.normal) := by
  obtain ⟨h_stored, h_some⟩ := Option.filter_eq_some_iff.mp h_stack
  have h_some : stackId ≠ [] := of_decide_eq_true h_some
  have h_hash : r.toHash = '#' :: slashes (serverSegs r.serverId .docker) ++
      slashes [DockerSection.stacks.id, encodeURIComponent stackId, (r.stackTab.getD .overview).id] ++
      ((none : Option Text).map ('?' :: ·)).getD [] := by
    rw [ServerRoute.toHash, h_tab, h_section, hash_start]
    simp only [h_stack, Option.getD_some]
    simp [slashes]
  have h_segs : ∀ seg ∈ [DockerSection.stacks.id, encodeURIComponent stackId,
      (r.stackTab.getD .overview).id], Segment seg := by
    intro seg h_seg
    simp only [List.mem_cons, List.not_mem_nil, or_false] at h_seg
    obtain rfl | rfl | rfl := h_seg
    · exact segment_section _
    · exact segment_encode h_some
    · exact segment_stackTab _
  rw [hashToRoute_server h.serverId .docker h_segs (by simp) h_hash, serverRoute_docker,
    dockerRoute_stacks, ServerRoute.normal, h_tab, h_section]
  simp only [h_stored, given_some h_some]
  rfl

/-- **The list of containers**, or one of them. -/
theorem deep_link_containers (h : r.Linkable) (h_tab : r.tab = .docker)
    (h_section : r.dockerSection = some .containers) :
    hashToRoute r.toHash = some (.server r.normal) := by
  have h_hash : r.toHash = '#' :: slashes (serverSegs r.serverId .docker) ++
      slashes (DockerSection.containers.id :: ((given r.containerId).map encodeURIComponent).toList) ++
      ((given (some (searchText (containerPairs r.stack r.filter)))).map ('?' :: ·)).getD [] := by
    rw [ServerRoute.toHash, h_tab, h_section, hash_start]
    simp only [idPart_eq, containerQuery_eq, Option.getD_some]
    simp [slashes]
  have h_segs : ∀ seg ∈ DockerSection.containers.id ::
      ((given r.containerId).map encodeURIComponent).toList, Segment seg := by
    intro seg h_seg
    obtain rfl | h_seg := List.mem_cons.mp h_seg
    · exact segment_section _
    · obtain ⟨containerId, h_id, rfl⟩ := Option.map_eq_some_iff.mp (Option.mem_toList.mp h_seg)
      exact segment_encode (of_decide_eq_true (Option.filter_eq_some_iff.mp h_id).2)
  have h_query : ∀ text ∈ given (some (searchText (containerPairs r.stack r.filter))), '?' ∉ text := by
    intro text h_text
    obtain ⟨h_eq, -⟩ := Option.filter_eq_some_iff.mp h_text
    rw [← Option.some.inj h_eq]
    exact notMem_searchText _
  have h_empty : (given (some (searchText (containerPairs r.stack r.filter)))).getD [] =
      searchText (containerPairs r.stack r.filter) := by
    by_cases h_nil : searchText (containerPairs r.stack r.filter) = []
    · rw [h_nil]
      rfl
    · rw [given_some h_nil]
      rfl
  obtain ⟨h_s, h_q⟩ := searchGet_containers r.stack r.filter
  rw [hashToRoute_server h.serverId .docker h_segs h_query h_hash, serverRoute_docker,
    dockerRoute_containers, h_empty, h_s, h_q, ServerRoute.normal, h_tab, h_section]
  rfl

theorem deep_link_docker (h : r.Linkable) (h_tab : r.tab = .docker) :
    hashToRoute r.toHash = some (.server r.normal) := by
  have h_bare : ∀ dockerSection, dockerSection ≠ DockerSection.containers →
      r.dockerSection.getD .overview = dockerSection →
      r.toHash = "#/server/".toList ++ encodeURIComponent r.serverId ++ '/' :: ServerTab.docker.id ++
        '/' :: (r.dockerSection.getD .overview).id →
      r.normal = { serverId := r.serverId, tab := .docker, dockerSection := some dockerSection } →
      hashToRoute r.toHash = some (.server r.normal) := by
    rintro _ h_containers rfl h_toHash h_normal
    rw [deep_link_section h h_containers h_toHash, h_normal]
  cases h_section : r.dockerSection with
  | none =>
    refine h_bare .overview (by simp) (by rw [h_section]; rfl) ?_ ?_
    · rw [ServerRoute.toHash, h_tab, h_section]
    · rw [ServerRoute.normal, h_tab, h_section]
      rfl
  | some dockerSection =>
    cases dockerSection with
    | overview =>
      refine h_bare .overview (by simp) (by rw [h_section]; rfl) ?_ ?_
      · rw [ServerRoute.toHash, h_tab, h_section]
      · rw [ServerRoute.normal, h_tab, h_section]
        rfl
    | images =>
      refine h_bare .images (by simp) (by rw [h_section]; rfl) ?_ ?_
      · rw [ServerRoute.toHash, h_tab, h_section]
      · rw [ServerRoute.normal, h_tab, h_section]
        rfl
    | containers => exact deep_link_containers h h_tab h_section
    | «stacks» =>
      cases h_stack : given r.stackId with
      | some stackId => exact deep_link_stack h h_tab h_section h_stack
      | none =>
        refine h_bare .stacks (by simp) (by rw [h_section]; rfl) ?_ ?_
        · rw [ServerRoute.toHash, h_tab, h_section]
          simp only [h_stack]
        · rw [ServerRoute.normal, h_tab, h_section]
          simp only [h_stack]
          rfl
    | volumes =>
      cases h_volume : given r.volume with
      | some volume => exact deep_link_volume h h_tab h_section h_volume
      | none =>
        refine h_bare .volumes (by simp) (by rw [h_section]; rfl) ?_ ?_
        · rw [ServerRoute.toHash, h_tab, h_section]
          simp only [h_volume]
        · rw [ServerRoute.normal, h_tab, h_section]
          simp only [h_volume]
          rfl

end RoundTrip

/-- **Deep links.** Every route comes back from its hash in its normal form. -/
theorem deep_link {route : Route} (h : ∀ r, route = .server r → r.Linkable) :
    hashToRoute (routeToHash route) = some route.normal := by
  cases route with
  | server r =>
    have h_link := h r rfl
    by_cases h_files : r.tab = .files
    · exact deep_link_files h_link h_files
    by_cases h_docker : r.tab = .docker
    · exact deep_link_docker h_link h_docker
    by_cases h_zfs : r.tab = .zfs
    · exact deep_link_zfs h_link h_zfs
    · exact deep_link_plain h_link h_files h_docker h_zfs
  | _ => decide

/-- A file in a folder, with reserved characters in the names. -/
def openFile : ServerRoute :=
  { serverId := "a b/é".toList
    tab := .files
    path := some "etc//x#y/".toList
    file := some "/etc/50% & ?+=".toList
    stackTab := some .logs }

theorem deep_link_file : hashToRoute (routeToHash (.server openFile)) = some (.server
    { openFile with path := some "/etc/x#y".toList, stackTab := none }) := by
  have h_link : ∀ r, Route.server openFile = .server r → r.Linkable := by
    intro r h
    obtain rfl := Route.server.inj h
    exact ⟨by decide, fun h_tab => absurd h_tab (by decide)⟩
  rw [deep_link h_link]
  decide

/-- The browser of a volume, without a folder. -/
def browsedVolume : ServerRoute :=
  { serverId := ['s'], tab := .docker, dockerSection := some .volumes, volume := some ['v'] }

/-- A list of containers with an empty filter. -/
def emptyFilter : ServerRoute :=
  { serverId := ['s'], tab := .docker, dockerSection := some .containers, filter := some [] }

/-- In the browser of a volume no folder is filled in, and an empty filter is lost. -/
theorem folder_not_filled :
    hashToRoute (routeToHash (.server browsedVolume)) ≠
        some (.server { browsedVolume with path := some ['/'] }) ∧
      hashToRoute (routeToHash (.server emptyFilter)) ≠ some (.server emptyFilter) := by
  decide +kernel

end ServerCentral.Web
