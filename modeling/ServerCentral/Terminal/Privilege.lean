import ServerCentral.Framework.Failing
import ServerCentral.Terminal.Opening

/-!
# Who gets which terminal

A terminal into a container is gated by `panel.terminal` alone, and running a command in a
container through `docker/containerExec` by the sensitive `panel.docker.exec`. So a holder
of the first without the second gets a shell in any container (`container_without_exec`).
`terminal_privilege` says that this is all that goes wrong.
-/

open Framework ServerCentral.Auth ServerCentral.Backends

namespace ServerCentral.Terminal

/-! ### The parts -/

theorem nonempty_eq_some {s : Option String} {t : String} :
    nonempty s = some t ↔ s = some t ∧ t ≠ "" := by
  simp [nonempty, Option.filter_eq_some_iff]

/-- The check of a sensitive node never throws and reads no wildcard. -/
theorem userCan_sensitive {user : AuthUser} {node : String} (h : node ∈ sensitivePermissions) :
    userCan user node = some (decide (HoldsNode user node)) := by
  rw [userCan]
  by_cases h_owner : user.isOwner = true
  · simp [h_owner, HoldsNode]
  · rw [if_neg h_owner, hasPermission, if_pos (List.contains_iff_mem.mpr h)]
    simp [HoldsNode, h_owner]

theorem exec_sensitive : "panel.exec" ∈ sensitivePermissions := by decide

theorem terminal_sensitive : "panel.terminal" ∈ sensitivePermissions := by decide

theorem dockerExec_sensitive : "panel.docker.exec" ∈ sensitivePermissions := by decide

/-- The node of the operation that runs a command in a container. -/
theorem containerExec_gated :
    opRequirements.get? "docker/containerExec" = some (.node "panel.docker.exec") :=
  opRequirements_gates (d := ⟨"panel.docker.exec", ["docker/containerExec"], true⟩)
    (by decide) (by decide)

theorem resolveShellUser_ok {user : AuthUser} {asUser : Option String} :
    resolveShellUser user = .ok asUser ↔
      (∃ name, nonempty user.systemUser = some name ∧ asUser = some name) ∨
      nonempty user.systemUser = none ∧ HoldsNode user "panel.exec" ∧ asUser = none := by
  rw [resolveShellUser, userCan_sensitive exec_sensitive]
  cases h_user : nonempty user.systemUser with
  | some name => simp [eq_comm]
  | none =>
    by_cases h_exec : HoldsNode user "panel.exec"
    · simp [h_exec, eq_comm]
    · simp [h_exec]

theorem openShell_ok {agent : HostAgent} {capabilities : List String} {sessionId : String}
    {cols rows : ℕ} {asUser command : Option String} {msg : OpenShell} :
    openShell agent capabilities sessionId cols rows asUser command = .ok msg ↔
      (asUser = none ∨ nonempty command ≠ none ∨ "shellAsUser" ∈ capabilities) ∧
      msg = ⟨sessionId, cols, rows, asUser, command⟩ := by
  rw [openShell]
  split
  case isTrue h =>
    obtain ⟨h_user, h_command, h_cap⟩ := h
    simp [Option.isSome_iff_ne_none.mp h_user, h_command, h_cap]
  case isFalse h =>
    have h_supported : asUser = none ∨ nonempty command ≠ none ∨
        "shellAsUser" ∈ capabilities := by
      by_contra h_not
      push Not at h_not
      exact h ⟨Option.isSome_iff_ne_none.mpr h_not.1, h_not.2⟩
    refine ⟨fun h_ok => ⟨h_supported, (Except.ok.inj h_ok).symm⟩, ?_⟩
    rintro ⟨-, rfl⟩
    rfl

/-! ### The command lines -/

theorem containerOf_containerShell {containerId : String}
    (h : Docker.safeId containerId = true) :
    containerOf (containerShell containerId) = some containerId := by
  have h_rest : (containerShell containerId).toList.drop execBefore.toList.length =
      containerId.toList ++ execAfter.toList := by
    rw [containerShell, String.toList_append, String.toList_append, List.append_assoc,
      List.drop_left]
  rw [containerOf]
  simp only [h_rest, List.length_append, Nat.add_sub_cancel, List.take_left, String.ofList_toList]
  exact if_pos ⟨h, trivial⟩

theorem ptyOf_containerShell (account : String) {containerId : String}
    (h : Docker.safeId containerId = true) :
    ptyOf account ["sh", "-c", containerShell containerId] = .container containerId := by
  rw [ptyOf, if_neg (by decide), if_pos ⟨rfl, rfl⟩, containerOf_containerShell h]

variable {host : AgentHost} {user : AuthUser}

/-- A shell as a user is allowed when the identity was resolved for the user. -/
theorem shellArgv_allowed {asUser : Option String} {argv : List String}
    (h_resolved : resolveShellUser user = .ok asUser)
    (h_cap : asUser = none ∨ "shellAsUser" ∈ host.capabilities)
    (h : host.shellArgv asUser = .ok argv) : PtyAllowed host user (ptyOf host.username argv) := by
  rw [AgentHost.shellArgv] at h
  cases h_filter : asUser.filter fun name => name ≠ "" ∧ name ≠ host.username with
  | none =>
    -- the agent's own shell: nobody to switch to, or the agent's own account
    rw [h_filter] at h
    obtain rfl := Except.ok.inj h
    rw [ptyOf, if_pos rfl]
    refine .own ?_
    obtain ⟨name, h_name, rfl⟩ | ⟨-, h_exec, -⟩ := (resolveShellUser_ok).mp h_resolved
    · obtain ⟨h_system, h_ne⟩ := (nonempty_eq_some).mp h_name
      right
      have h_own : name = host.username := by
        by_contra h_other
        simp [Option.filter, h_ne, h_other] at h_filter
      rw [h_system, h_own]
    · exact .inl h_exec
  | some name =>
    rw [h_filter] at h
    obtain ⟨rfl, -⟩ := Option.filter_eq_some_iff.mp h_filter
    obtain ⟨name', h_name, h_eq⟩ | ⟨-, -, h_none⟩ := (resolveShellUser_ok).mp h_resolved
    swap
    · exact absurd h_none (by simp)
    obtain rfl := Option.some.inj h_eq
    have h_allowed : host.username = "root" → PtyAllowed host user (.shell name) :=
      .mapped (nonempty_eq_some.mp h_name).1 (h_cap.resolve_left (by simp))
    dsimp only at h
    split at h
    · exact absurd h (by simp)
    split at h
    · exact absurd h (by simp)
    next h_root =>
      split at h
      · obtain rfl := Except.ok.inj h
        rw [ptyOf, if_pos (.inl rfl)]
        exact h_allowed (not_not.mp h_root)
      · obtain rfl := Except.ok.inj h
        rw [ptyOf, if_pos (.inr ⟨rfl, rfl⟩)]
        exact h_allowed (not_not.mp h_root)

/-! ### The channel -/

variable {fleet : Fleet} {hosts : HostAgent → AgentHost} {sessionId : String}

/-- A request that is upgraded. -/
structure Upgraded (fleet : Fleet) (user : AuthUser) (req : TerminalRequest)
    (agent : HostAgent) : Prop where
  terminal : HoldsNode user "panel.terminal"
  upgrade : req.isUpgrade = true
  server : ∃ serverId, nonempty req.serverId = some serverId ∧ fleet.get serverId = .ok agent

theorem nonempty_containerShell (containerId : String) :
    nonempty (some (containerShell containerId)) = some (containerShell containerId) := by
  refine (nonempty_eq_some).mpr ⟨rfl, fun h_empty => ?_⟩
  have h_list := congrArg (fun s => s.toList.length) h_empty
  simp [containerShell, execBefore, String.toList_append] at h_list

/-- The two messages the feature can make. -/
theorem openTerminalShell_ok {serverId : String} {containerId : Option String} {user : AuthUser}
    {agent : HostAgent} {msg : OpenShell}
    (h : openTerminalShell fleet hosts sessionId serverId containerId user = .ok (agent, msg)) :
    fleet.get serverId = .ok agent ∧
      ((∃ id, nonempty containerId = some id ∧ Docker.safeId id = true ∧
          msg = ⟨sessionId, 80, 24, none, some (containerShell id)⟩) ∨
        ∃ asUser, resolveShellUser user = .ok asUser ∧
          (asUser = none ∨ "shellAsUser" ∈ (hosts agent).capabilities) ∧
          msg = ⟨sessionId, 80, 24, asUser, none⟩) := by
  rw [openTerminalShell] at h
  cases h_get : fleet.get serverId with
  | error message =>
    rw [h_get] at h
    cases h
  | ok agent' =>
    rw [h_get] at h
    dsimp only at h
    split at h
    next id h_container =>
      obtain ⟨command, h_command, h⟩ := bind_eq_ok h
      obtain ⟨msg', h_open, h⟩ := bind_eq_ok h
      obtain ⟨rfl, rfl⟩ := Prod.mk.inj (Except.ok.inj h)
      obtain ⟨-, rfl⟩ := (openShell_ok).mp h_open
      refine ⟨rfl, .inl ⟨id, h_container, ?_⟩⟩
      unfold dockerContainerShellCommand at h_command
      split at h_command
      next h_safe => exact ⟨h_safe, by rw [Except.ok.inj h_command]⟩
      next => cases h_command
    next =>
      obtain ⟨asUser, h_user, h⟩ := bind_eq_ok h
      obtain ⟨msg', h_open, h⟩ := bind_eq_ok h
      obtain ⟨rfl, rfl⟩ := Prod.mk.inj (Except.ok.inj h)
      obtain ⟨h_cap, rfl⟩ := (openShell_ok).mp h_open
      refine ⟨rfl, .inr ⟨asUser, h_user, ?_, rfl⟩⟩
      exact h_cap.imp_right fun h_or => h_or.resolve_left (by simp [nonempty])

/-- **What reaches the spawn**: the two ways of the feature, after the gate. -/
theorem spawned_cases {user : Option AuthUser} {req : TerminalRequest} {agent : HostAgent}
    {argv : List String} (h : openTerminal fleet hosts sessionId user req = .spawned agent argv) :
    ∃ u, user = some u ∧ Upgraded fleet u req agent ∧
      ((∃ id, nonempty req.containerId = some id ∧ Docker.safeId id = true ∧
          argv = ["sh", "-c", containerShell id]) ∨
        ∃ asUser, resolveShellUser u = .ok asUser ∧
          (asUser = none ∨ "shellAsUser" ∈ (hosts agent).capabilities) ∧
          (hosts agent).shellArgv asUser = .ok argv) := by
  unfold openTerminal at h
  cases user with
  | none => cases h
  | some u =>
    refine ⟨u, rfl, ?_⟩
    dsimp only at h
    rw [userCan_sensitive terminal_sensitive] at h
    by_cases h_terminal : HoldsNode u "panel.terminal"
    case neg => simp [h_terminal] at h
    simp only [h_terminal, decide_true] at h
    split at h
    · cases h
    next serverId h_server =>
    split at h
    · cases h
    next h_upgrade =>
    split at h
    · cases h
    next agent' msg h_open =>
    split at h
    · cases h
    next argv' h_run =>
    obtain ⟨rfl, rfl⟩ := TerminalOutcome.spawned.inj h
    obtain ⟨h_get, h_msg⟩ := openTerminalShell_ok h_open
    refine ⟨⟨h_terminal, by simpa using h_upgrade, serverId, h_server, h_get⟩, ?_⟩
    obtain ⟨id, h_container, h_safe, rfl⟩ | ⟨asUser, h_user, h_cap, rfl⟩ := h_msg
    · left
      refine ⟨id, h_container, h_safe, ?_⟩
      rw [AgentHost.runOpenShell, nonempty_containerShell] at h_run
      exact (Except.ok.inj h_run).symm
    · right
      refine ⟨asUser, h_user, h_cap, ?_⟩
      have h_asUser : (if (hosts agent').honoursAsUser then asUser else none) = asUser := by
        obtain rfl | h_cap := h_cap
        · exact ite_self none
        · exact if_pos ((hosts agent').advertised h_cap)
      rw [← h_run, AgentHost.runOpenShell]
      show _ = (hosts agent').shellArgv (if (hosts agent').honoursAsUser then asUser else none)
      rw [h_asUser]

/-- A shell in a container is opened for everybody who is upgraded. -/
theorem spawned_container {u : AuthUser} {req : TerminalRequest} {agent : HostAgent} {id : String}
    (h : Upgraded fleet u req agent) (h_container : nonempty req.containerId = some id)
    (h_safe : Docker.safeId id = true) :
    openTerminal fleet hosts sessionId (some u) req =
      .spawned agent ["sh", "-c", containerShell id] := by
  obtain ⟨serverId, h_server, h_get⟩ := h.server
  have h_open : openTerminalShell fleet hosts sessionId serverId req.containerId u =
      .ok (agent, ⟨sessionId, 80, 24, none, some (containerShell id)⟩) := by
    rw [openTerminalShell, h_get, h_container]
    dsimp only
    rw [dockerContainerShellCommand, if_pos h_safe]
    have h_msg : openShell agent (hosts agent).capabilities sessionId 80 24 none
        (some (containerShell id)) = .ok ⟨sessionId, 80, 24, none, some (containerShell id)⟩ :=
      (openShell_ok).mpr ⟨.inl rfl, rfl⟩
    show (openShell agent (hosts agent).capabilities sessionId 80 24 none
        (some (containerShell id)) >>= fun msg => pure (agent, msg)) = _
    rw [h_msg]
    rfl
  unfold openTerminal
  dsimp only
  rw [userCan_sensitive terminal_sensitive, decide_eq_true h.terminal]
  dsimp only
  rw [h_server]
  dsimp only
  rw [h.upgrade, h_open]
  dsimp only
  rw [AgentHost.runOpenShell, nonempty_containerShell]
  rfl

/-! ### The privilege of a terminal -/

/-- What is opened for a user is what the user may have. -/
def PrivilegeKept (fleet : Fleet) (hosts : HostAgent → AgentHost) (sessionId : String)
    (user : Option AuthUser) (req : TerminalRequest) : Prop :=
  ∀ agent argv, openTerminal fleet hosts sessionId user req = .spawned agent argv →
    ∃ u, user = some u ∧ PtyAllowed (hosts agent) u (ptyOf (hosts agent).username argv)

/-- A request for a shell in a container, when it is upgraded, comes from somebody who may run
commands in containers. -/
def ContainersGated (fleet : Fleet) (user : Option AuthUser) (req : TerminalRequest) : Prop :=
  ∀ u agent id, user = some u → Upgraded fleet u req agent →
    nonempty req.containerId = some id → Docker.safeId id = true → HoldsNode u "panel.docker.exec"

/-- **Terminals and privileges**, for every user and request, every fleet and what the agents
in it run as and advertise. -/
theorem terminal_privilege (fleet : Fleet) (hosts : HostAgent → AgentHost) (sessionId : String)
    (user : Option AuthUser) (req : TerminalRequest) :
    PrivilegeKept fleet hosts sessionId user req ↔ ContainersGated fleet user req := by
  constructor
  · rintro h_kept u agent id rfl h_upgraded h_container h_safe
    obtain ⟨u', h_user, h_allowed⟩ :=
      h_kept _ _ (spawned_container h_upgraded h_container h_safe)
    obtain rfl := Option.some.inj h_user
    rw [ptyOf_containerShell _ h_safe] at h_allowed
    cases h_allowed with
    | container h_exec => exact h_exec
  · intro h_gated agent argv h_spawned
    obtain ⟨u, rfl, h_upgraded, h_way⟩ := spawned_cases h_spawned
    refine ⟨u, rfl, ?_⟩
    obtain ⟨id, h_container, h_safe, rfl⟩ | ⟨asUser, h_user, h_cap, h_argv⟩ := h_way
    · rw [ptyOf_containerShell _ h_safe]
      exact .container (h_gated u agent id rfl h_upgraded h_container h_safe)
    · exact shellArgv_allowed h_user h_cap h_argv

/-- The agent of a host, run by root. -/
def rootHost : AgentHost where
  capabilities := ["shellAsUser"]
  username := "root"
  shell := none
  runuser := some "/usr/sbin/runuser"
  honoursAsUser := true
  advertised := fun _ => rfl

/-- Somebody who may open terminals and is mapped to an account of the hosts. -/
def operator : AuthUser :=
  { id := "u1", username := "bob", isOwner := false, roleIds := [], createdAt := 0
    systemUser := some "bob", email := none, permissions := [some "panel.terminal"] }

def oneHost : HostAgent := ⟨0, "m1", "host", none, "installed", none⟩

/-- A terminal on the host runs as `bob`, and `docker/containerExec` is refused, but a shell in
a container is opened. -/
theorem container_without_exec :
    ¬PrivilegeKept (Fleet.fresh.register oneHost 0).1 (fun _ => rootHost) "s1" (some operator)
      ⟨true, some "m1", some "web"⟩ ∧
    openTerminal (Fleet.fresh.register oneHost 0).1 (fun _ => rootHost) "s1" (some operator)
      ⟨true, some "m1", none⟩ = .spawned oneHost ["/usr/sbin/runuser", "-l", "bob"] ∧
    authorize "docker/containerExec" (some operator) =
      some (.refused 403 "Requires the \"panel.docker.exec\" permission") := by
  have h_upgraded : Upgraded (Fleet.fresh.register oneHost 0).1 operator
      ⟨true, some "m1", some "web"⟩ oneHost :=
    ⟨by decide, rfl, "m1", by decide, by decide⟩
  have h_can : userCan operator "panel.docker.exec" = some false := by
    rw [userCan_sensitive dockerExec_sensitive]
    decide
  refine ⟨fun h_kept => ?_, by decide +kernel, ?_⟩
  swap
  · rw [authorize_node containerExec_gated, h_can]
    rfl
  have h_web : nonempty (some "web") = some "web" := by decide
  obtain ⟨u, h_user, h_allowed⟩ :=
    h_kept oneHost _ (spawned_container h_upgraded h_web (by decide))
  obtain rfl := Option.some.inj h_user
  rw [ptyOf_containerShell _ (by decide)] at h_allowed
  cases h_allowed with
  | container h_exec => exact absurd h_exec (by decide)

end ServerCentral.Terminal
