import ServerCentral.Host.LegacyRun

/-!
# Old agents and new ones do the same

`Alike` is the condition under which the command string of `run` does what the agent does with
the argv, and `same_effect_iff` the theorem. Without a log everything hangs on the shell: its
`cd` has to lead where entering the directory leads, leaving the variables of the program as
they are, and the name of the program must not be one of the shell's own. With a log there
must be neither a directory nor variables.
-/

open Framework.Shell

namespace ServerCentral.Host

variable {Dir : Type*} {shell : Dialect Dir} {host : Framework.Shell.Host Dir}
  {argv : List String} {opts : ExecOptions}

/-- The program's name. -/
def programName (argv : List String) : List Char := (argvTexts argv).headD []

/-- What the shell's `cd` leaves. -/
def changes (shell : Dialect Dir) (host : Framework.Shell.Host Dir) (cwd : String) :
    Option (State Dir) :=
  shell.utility [] [['c', 'd'], cwd.toList] ⟨host.dir, host.env⟩

/-- **When an old agent does what a new one does.** -/
def Alike (shell : Dialect Dir) (host : Framework.Shell.Host Dir) (argv : List String)
    (opts : ExecOptions) : Prop :=
  match opts.detach, opts.directory with
  | some _, some _ => False
  | some logPath, none =>
    host.writable host.dir logPath.toList →
      opts.entries = [] ∧ (programName argv).head? ≠ some '-'
  | none, none => ¬ shell.runs (programName argv)
  | none, some cwd =>
    match host.enter host.dir cwd.toList, changes shell host cwd with
    | none, none => True
    | some dir, some state =>
      state.dir = dir ∧
        state.env.assign (entryTexts opts) = host.env.assign (entryTexts opts) ∧
          ¬ shell.runs (programName argv)
    | _, _ => False

theorem argvTexts_eq (h : argv ≠ []) :
    ∃ operands, argvTexts argv = programName argv :: operands := by
  cases argv with
  | nil => exact absurd rfl h
  | cons name operands => exact ⟨argvTexts operands, rfl⟩

/-! ### A command of the shell -/

section Commands

variable {background : Bool} {state : State Dir}

/-- A program is started where its redirections leave its streams. -/
theorem runCommand_program {command : Literal} {name : List Char} {operands : List (List Char)}
    {streams : Streams Dir} (h_words : command.words = name :: operands)
    (h_streams : command.redirects.foldlM (redirect host state.dir) .inherited = .ok streams)
    (h_name : ¬ shell.runs name) :
    runCommand shell host background state command
      = some (runProgram host background state streams command) := by
  rw [runCommand, h_words, h_streams]
  simp [h_name]

theorem runCommand_utility {command : Literal} {name : List Char} {operands : List (List Char)}
    {streams : Streams Dir} (h_words : command.words = name :: operands)
    (h_streams : command.redirects.foldlM (redirect host state.dir) .inherited = .ok streams)
    (h_name : shell.runs name) :
    runCommand shell host background state command = some (runUtility shell state command) := by
  rw [runCommand, h_words, h_streams]
  simp [h_name]

theorem runCommand_failed {command : Literal} {name : List Char} {operands : List (List Char)}
    (h_words : command.words = name :: operands)
    (h_streams : command.redirects.foldlM (redirect host state.dir) .inherited
      = .error .failed) :
    runCommand shell host background state command = some ⟨[], false, state⟩ := by
  rw [runCommand, h_words, h_streams]

/-- The last command of a list decides what the list comes to. -/
theorem runCommands_last {command : Literal} {result : Result Dir}
    (h : runCommand shell host background state command = some result) :
    runCommands shell host background state [command] = some result.events := by
  rw [runCommands, h, Option.bind_some]
  simp [runCommands]

/-- What the shell runs itself starts no program. -/
theorem runUtility_events (command : Literal) :
    ∀ event ∈ (runUtility shell state command).events, ∀ run, event ≠ .started run := by
  rw [runUtility]
  split <;> split <;> simp

end Commands

/-! ### What an old agent's shell does -/

/-- What the command string of `run` comes to. -/
def legacyEvents (shell : Dialect Dir) (host : Framework.Shell.Host Dir) (argv : List String)
    (opts : ExecOptions) : Option (List (Event Dir)) :=
  runCommands shell host opts.detach.isSome ⟨host.dir, host.env⟩ (legacyLiterals argv opts)

theorem effect_old (h_argv : argv ≠ []) (h_names : ∀ entry ∈ opts.entries, envName entry.1) :
    effect shell host false argv opts
      = .ok ((legacyEvents shell host argv opts).map (List.map Event.settled)) := by
  obtain ⟨command, h_run, h_read⟩ := run_legacy h_argv h_names
  rw [effect, h_run]
  show Except.ok ((runLine shell host command.toList).map _) = _
  rw [runLine, h_read, Option.bind_some, legacyEvents]

/-- The command itself, behind the `cd` there may be. -/
theorem command_events (h_argv : argv ≠ []) (background : Bool) (state : State Dir) :
    runCommands shell host background state [⟨entryTexts opts, argvTexts argv, []⟩]
      = some (if shell.runs (programName argv) then
          (runUtility shell state ⟨entryTexts opts, argvTexts argv, []⟩).events
        else [.started ⟨argvTexts argv, state.dir, state.env.assign (entryTexts opts),
          .inherited, background⟩]) := by
  obtain ⟨operands, h_words⟩ := argvTexts_eq h_argv
  split
  · next h_own => exact runCommands_last (runCommand_utility h_words rfl h_own)
  · next h_foreign => exact runCommands_last (runCommand_program h_words rfl h_foreign)

theorem cd_runs (shell : Dialect Dir) : shell.runs ['c', 'd'] := by
  rw [Dialect.runs, shell.cd_own]
  rfl

theorem nohup_foreign (shell : Dialect Dir) : ¬ shell.runs nohup := by
  rw [Dialect.runs, nohup, shell.nohup_foreign]
  decide

/-- Behind a `cd` the command runs where `cd` has led, and not at all where `cd` has failed. -/
theorem cd_events (shell : Dialect Dir) (host : Framework.Shell.Host Dir) (cwd : String)
    (rest : List Literal) (background : Bool) :
    runCommands shell host background ⟨host.dir, host.env⟩
        (⟨[], [['c', 'd'], cwd.toList], []⟩ :: rest)
      = match changes shell host cwd with
        | none => some []
        | some state =>
          (runCommands shell host background state rest).map (.entered state.dir :: ·) := by
  have h_cd : runCommand shell host background ⟨host.dir, host.env⟩
        ⟨[], [['c', 'd'], cwd.toList], []⟩
      = some (runUtility shell ⟨host.dir, host.env⟩ ⟨[], [['c', 'd'], cwd.toList], []⟩) :=
    runCommand_utility rfl rfl (cd_runs shell)
  rw [runCommands, h_cd, Option.bind_some, runUtility, ← changes]
  cases changes shell host cwd with
  | none => simp
  | some state => simp

/-- The redirections of a detached command. -/
theorem log_streams (host : Framework.Shell.Host Dir) (dir : Dir) (logPath : String) :
    (logDuplicates logPath).foldlM (redirect host dir) .inherited
      = if host.writable dir logPath.toList then
          .ok ⟨.file dir logPath.toList, .file dir logPath.toList⟩
        else .error .failed := by
  by_cases h : host.writable dir logPath.toList
  · simp [logDuplicates, redirect, h, Streams.set, Streams.get, bind, Except.bind, pure,
      Except.pure]
  · simp [logDuplicates, redirect, h, bind, Except.bind]

theorem logged_events (shell : Dialect Dir) (host : Framework.Shell.Host Dir)
    (opts : ExecOptions) (h_argv : argv ≠ []) (logPath : String) (state : State Dir) :
    ∃ events, runCommands shell host true state
        [⟨entryTexts opts, argvTexts argv, logDuplicates logPath⟩] = some events := by
  obtain ⟨operands, h_words⟩ := argvTexts_eq h_argv
  have h_streams := log_streams host state.dir logPath
  by_cases h_open : host.writable state.dir logPath.toList
  · rw [if_pos h_open] at h_streams
    by_cases h_own : shell.runs (programName argv)
    · exact ⟨_, runCommands_last (runCommand_utility h_words h_streams h_own)⟩
    · exact ⟨_, runCommands_last (runCommand_program h_words h_streams h_own)⟩
  · rw [if_neg h_open] at h_streams
    exact ⟨_, runCommands_last (runCommand_failed h_words h_streams)⟩

/-- With a log and a directory it is `nohup cd` that is started, whose streams are not the
log's. -/
theorem nohup_cd_events (shell : Dialect Dir) (host : Framework.Shell.Host Dir)
    (opts : ExecOptions) (h_argv : argv ≠ []) (cwd logPath : String) :
    ∃ events, runCommands shell host true ⟨host.dir, host.env⟩
        [⟨[], [nohup, ['c', 'd'], cwd.toList], []⟩,
          ⟨entryTexts opts, argvTexts argv, logDuplicates logPath⟩]
      = some (.started ⟨[nohup, ['c', 'd'], cwd.toList], host.dir, host.env, .inherited, true⟩ ::
          events) := by
  have h_first : runCommand shell host true ⟨host.dir, host.env⟩
        ⟨[], [nohup, ['c', 'd'], cwd.toList], []⟩
      = some (runProgram host true ⟨host.dir, host.env⟩ .inherited
          ⟨[], [nohup, ['c', 'd'], cwd.toList], []⟩) :=
    runCommand_program rfl rfl (nohup_foreign shell)
  obtain ⟨events, h_rest⟩ := logged_events shell host opts h_argv logPath ⟨host.dir, host.env⟩
  rw [runCommands, h_first, Option.bind_some, runProgram]
  simp only [h_rest]
  split
  · exact ⟨events, rfl⟩
  · exact ⟨[], rfl⟩

theorem nohup_events (operands : List (List Char)) (logPath : String) :
    runCommands shell host true ⟨host.dir, host.env⟩
        [⟨[], nohup :: operands, logDuplicates logPath⟩]
      = some (if host.writable host.dir logPath.toList then
          [.started ⟨nohup :: operands, host.dir, host.env,
            ⟨.file host.dir logPath.toList, .file host.dir logPath.toList⟩, true⟩]
        else []) := by
  have h_streams := log_streams host host.dir logPath
  split
  · next h_open =>
    rw [if_pos h_open] at h_streams
    exact runCommands_last (runCommand_program rfl h_streams (nohup_foreign shell))
  · next h_closed =>
    rw [if_neg h_closed] at h_streams
    exact runCommands_last (runCommand_failed rfl h_streams)

/-! ### What a new agent does -/

/-- What the agent does with the argv. -/
def agentEvents (host : Framework.Shell.Host Dir) (argv : List String) (opts : ExecOptions) :
    List (Event Dir) :=
  match opts.detach with
  | some logPath => runDetached host argv opts logPath
  | none => runExecArgv host argv opts

theorem effect_new (h_argv : argv ≠ []) :
    effect shell host true argv opts = .ok (some ((agentEvents host argv opts).map Event.settled)) := by
  rw [effect, run, if_neg h_argv, agentEvents]
  show Except.ok ((serve shell host (.execArgv argv opts)).map _) = _
  rw [serve]
  cases opts.detach <;> rfl

/-! ### The two compared -/

theorem settled_nohup (command : List Char) (operands : List (List Char)) :
    settledArgv (nohup :: command :: operands) = settledArgv (command :: operands) ↔
      command.head? ≠ some '-' := by
  constructor
  · rintro h_same h_option
    -- an option is not `nohup`, so nothing of either argv settles
    have h_ne : command ≠ nohup := by
      rintro rfl
      cases h_option
    have h_stays : settledArgv (nohup :: command :: operands) = nohup :: command :: operands := by
      rw [settledArgv, if_neg]
      rintro ⟨-, h_plain⟩
      exact h_plain h_option
    rw [h_stays, settledArgv_of_ne h_ne] at h_same
    have h_length := congrArg List.length h_same
    simp at h_length
  · intro h_plain
    exact settledArgv_nohup h_plain operands

/-- Behind `nohup` an assignment is the program that would be started. -/
theorem settled_entries {entries : List (List Char × List Char)} (h_entries : entries ≠ [])
    (h_names : ∀ entry ∈ entries, isName entry.1) (argv : List (List Char)) :
    settledArgv (nohup :: (entries.map entryWord ++ argv)) ≠ settledArgv argv := by
  cases entries with
  | nil => exact absurd rfl h_entries
  | cons entry entries =>
    have h_name := h_names entry List.mem_cons_self
    have h_equals : '=' ∈ entryWord entry := by simp [entryWord]
    have h_ne : entryWord entry ≠ nohup := by
      intro h_eq
      rw [h_eq] at h_equals
      revert h_equals
      decide
    have h_plain : (entryWord entry).head? ≠ some '-' := by
      rw [entryWord]
      cases h_first : entry.1 with
      | nil => simp
      | cons c rest =>
        have h_letter := name_letter h_name c (by simp [h_first])
        rintro ⟨⟩
        revert h_letter
        decide
    intro h_same
    have h_settled : settledArgv (nohup :: entryWord entry :: (entries.map entryWord ++ argv))
        = entryWord entry :: (entries.map entryWord ++ argv) :=
      (settledArgv_nohup h_plain _).trans (settledArgv_of_ne h_ne _)
    rw [List.map_cons, List.cons_append, h_settled] at h_same
    have h_length := congrArg List.length h_same
    have h_le := settledArgv_length_le argv
    simp only [List.length_cons, List.length_append, List.length_map] at h_length
    omega

theorem started_notMem_settled {events : List (Event Dir)}
    (h : ∀ event ∈ events, ∀ run, event ≠ .started run) (run : Run Dir) :
    .started run ∉ events.map Event.settled := by
  intro h_mem
  obtain ⟨event, h_event, h_settled⟩ := List.mem_map.mp h_mem
  cases event with
  | entered dir => cases h_settled
  | own words => cases h_settled
  | started other => exact h _ h_event other rfl

/-- The shell's own utility in the place of the program. -/
theorem own_ne_started (shell : Dialect Dir) (state : State Dir) (command : Literal)
    (run : Run Dir) :
    (runUtility shell state command).events.map Event.settled ≠ [Event.settled (.started run)] := by
  intro h_same
  apply started_notMem_settled (runUtility_events command) run.settled
  rw [h_same]
  exact List.mem_cons_self

theorem same_plain (h_argv : argv ≠ []) (h_detach : opts.detach = none)
    (h_dir : opts.directory = none) :
    (legacyEvents shell host argv opts).map (List.map Event.settled)
        = some ((agentEvents host argv opts).map Event.settled) ↔
      ¬ shell.runs (programName argv) := by
  have h_old : legacyEvents shell host argv opts
      = some (if shell.runs (programName argv) then
          (runUtility shell ⟨host.dir, host.env⟩ ⟨entryTexts opts, argvTexts argv, []⟩).events
        else [.started ⟨argvTexts argv, host.dir, host.env.assign (entryTexts opts),
          .inherited, false⟩]) := by
    rw [legacyEvents, legacyLiterals, h_detach, intended, h_dir]
    exact command_events h_argv false ⟨host.dir, host.env⟩
  have h_new : agentEvents host argv opts
      = [.started ⟨argvTexts argv, host.dir, host.env.assign (entryTexts opts),
          .inherited, false⟩] := by
    rw [agentEvents, h_detach]
    show runExecArgv host argv opts = _
    rw [runExecArgv, if_neg h_argv, spawn, h_dir]
  rw [h_old, h_new, Option.map_some, Option.some.injEq]
  by_cases h_own : shell.runs (programName argv)
  · rw [if_pos h_own]
    exact iff_of_false (own_ne_started _ _ _ _) (not_not_intro h_own)
  · rw [if_neg h_own]
    exact iff_of_true rfl h_own

theorem same_directory (h_argv : argv ≠ []) (h_detach : opts.detach = none) {cwd : String}
    (h_dir : opts.directory = some cwd) :
    (legacyEvents shell host argv opts).map (List.map Event.settled)
        = some ((agentEvents host argv opts).map Event.settled) ↔
      match host.enter host.dir cwd.toList, changes shell host cwd with
      | none, none => True
      | some dir, some state =>
        state.dir = dir ∧
          state.env.assign (entryTexts opts) = host.env.assign (entryTexts opts) ∧
            ¬ shell.runs (programName argv)
      | _, _ => False := by
  have h_old : legacyEvents shell host argv opts
      = (changes shell host cwd).elim (some []) fun state =>
          some (.entered state.dir :: if shell.runs (programName argv) then
            (runUtility shell state ⟨entryTexts opts, argvTexts argv, []⟩).events
          else [.started ⟨argvTexts argv, state.dir, state.env.assign (entryTexts opts),
            .inherited, false⟩]) := by
    rw [legacyEvents, legacyLiterals, h_detach, intended, h_dir]
    have h_cd := cd_events shell host cwd [⟨entryTexts opts, argvTexts argv, []⟩] false
    simp only [command_events h_argv false, Option.map_some] at h_cd
    refine h_cd.trans ?_
    cases changes shell host cwd with
    | none => rfl
    | some state => rfl
  have h_new : agentEvents host argv opts
      = (host.enter host.dir cwd.toList).elim [] fun dir => [.entered dir, .started
          ⟨argvTexts argv, dir, host.env.assign (entryTexts opts), .inherited, false⟩] := by
    rw [agentEvents, h_detach]
    calc runExecArgv host argv opts
        = spawn host argv opts .inherited false := if_neg h_argv
      _ = _ := by
        cases h_enter : host.enter host.dir cwd.toList with
        | none => simp [spawn, h_dir, h_enter]
        | some dir => simp [spawn, h_dir, h_enter]
  rw [h_old, h_new]
  cases changes shell host cwd with
  | none =>
    cases host.enter host.dir cwd.toList with
    | none => simp
    | some dir => simp
  | some state =>
    cases host.enter host.dir cwd.toList with
    | none => simp
    | some dir =>
      by_cases h_own : shell.runs (programName argv)
      · have h_differ := own_ne_started shell state ⟨entryTexts opts, argvTexts argv, []⟩
          ⟨argvTexts argv, dir, host.env.assign (entryTexts opts), .inherited, false⟩
        simp [h_own, h_differ]
      · simp [h_own, Event.settled, Run.settled]

theorem same_logged (h_argv : argv ≠ []) (h_names : ∀ entry ∈ opts.entries, envName entry.1)
    {logPath : String} (h_detach : opts.detach = some logPath) (h_dir : opts.directory = none) :
    (legacyEvents shell host argv opts).map (List.map Event.settled)
        = some ((agentEvents host argv opts).map Event.settled) ↔
      (host.writable host.dir logPath.toList →
        opts.entries = [] ∧ (programName argv).head? ≠ some '-') := by
  have h_old : legacyEvents shell host argv opts
      = some (if host.writable host.dir logPath.toList then
          [.started ⟨nohup :: ((entryTexts opts).map entryWord ++ argvTexts argv), host.dir,
            host.env, ⟨.file host.dir logPath.toList, .file host.dir logPath.toList⟩, true⟩]
        else []) := by
    rw [legacyEvents, legacyLiterals, h_detach]
    show runCommands shell host true _ (detachedLiterals argv opts logPath) = _
    rw [detachedLiterals, h_dir]
    exact nohup_events _ logPath
  have h_new : agentEvents host argv opts
      = if host.writable host.dir logPath.toList then
          [.started ⟨argvTexts argv, host.dir, host.env.assign (entryTexts opts),
            ⟨.file host.dir logPath.toList, .file host.dir logPath.toList⟩, true⟩]
        else [] := by
    rw [agentEvents, h_detach]
    show runDetached host argv opts logPath = _
    rw [runDetached, if_neg h_argv, spawn, h_dir]
  have h_none : entryTexts opts = [] ↔ opts.entries = [] := by simp [entryTexts]
  rw [h_old, h_new, Option.map_some, Option.some.injEq]
  by_cases h_open : host.writable host.dir logPath.toList
  · rw [if_pos h_open, if_pos h_open]
    obtain ⟨operands, h_words⟩ := argvTexts_eq h_argv
    constructor
    · intro h_same _
      have h_settled : settledArgv (nohup :: ((entryTexts opts).map entryWord ++ argvTexts argv))
          = settledArgv (argvTexts argv) := by
        simp only [List.map_cons, List.map_nil, Event.settled, Run.settled, List.cons.injEq,
          Event.started.injEq, Run.mk.injEq] at h_same
        exact h_same.1.1
      have h_entries : entryTexts opts = [] := by
        by_contra h_some
        exact settled_entries h_some (entryTexts_names h_names) _ h_settled
      rw [h_entries, h_words] at h_settled
      exact ⟨h_none.mp h_entries, (settled_nohup _ operands).mp h_settled⟩
    · intro h_alike
      obtain ⟨h_entries, h_plain⟩ := h_alike h_open
      have h_settled := (settled_nohup _ operands).mpr h_plain
      simp [h_none.mpr h_entries, h_words, Event.settled, Run.settled, h_settled]
  · rw [if_neg h_open, if_neg h_open]
    exact iff_of_true rfl fun h => absurd h h_open

theorem same_never (h_argv : argv ≠ []) {logPath cwd : String}
    (h_detach : opts.detach = some logPath) (h_dir : opts.directory = some cwd) :
    (legacyEvents shell host argv opts).map (List.map Event.settled)
      ≠ some ((agentEvents host argv opts).map Event.settled) := by
  obtain ⟨events, h_events⟩ := nohup_cd_events shell host opts h_argv cwd logPath
  have h_old : legacyEvents shell host argv opts
      = some (.started ⟨[nohup, ['c', 'd'], cwd.toList], host.dir, host.env, .inherited, true⟩ ::
          events) := by
    rw [legacyEvents, legacyLiterals, h_detach]
    show runCommands shell host true _ (detachedLiterals argv opts logPath) = _
    rw [detachedLiterals, h_dir]
    exact h_events
  have h_new : agentEvents host argv opts = []
      ∨ ∃ dir rest, agentEvents host argv opts = .entered dir :: rest := by
    rw [agentEvents, h_detach]
    show runDetached host argv opts logPath = [] ∨ ∃ dir rest, runDetached host argv opts logPath = _
    rw [runDetached, if_neg h_argv]
    split
    · rw [spawn, h_dir]
      cases h_enter : host.enter host.dir cwd.toList with
      | none => simp [h_enter]
      | some dir => simp [h_enter]
    · exact .inl rfl
  rw [h_old, Option.map_some, List.map_cons]
  obtain h_nil | ⟨dir, rest, h_entered⟩ := h_new
  · rw [h_nil]
    simp
  · rw [h_entered]
    simp [Event.settled]

/-- **When an old agent does the same.** With every shell and on every host, what `run` comes
to on an agent without `execArgv` is what it comes to on one with it exactly where `Alike`
holds. -/
theorem same_effect_iff (shell : Dialect Dir) (host : Framework.Shell.Host Dir)
    (argv : List String) (opts : ExecOptions) (h_argv : argv ≠ [])
    (h_names : ∀ entry ∈ opts.entries, isName entry.1.toList) :
    effect shell host false argv opts = effect shell host true argv opts ↔
      Alike shell host argv opts := by
  simp only [← envName_eq] at h_names
  rw [effect_old h_argv h_names, effect_new h_argv, Except.ok.injEq, Alike]
  cases h_detach : opts.detach with
  | none =>
    cases h_dir : opts.directory with
    | none => exact same_plain h_argv h_detach h_dir
    | some cwd => exact same_directory h_argv h_detach h_dir
  | some logPath =>
    cases h_dir : opts.directory with
    | none => exact same_logged h_argv h_names h_detach h_dir
    | some cwd => exact iff_of_false (same_never h_argv h_detach h_dir) not_false

/-! ### A detached command in a directory -/

/-- A host with one directory, and a shell that changes to it as the host does. -/
def oneDirectory : Framework.Shell.Host String where
  dir := "/"
  env := fun _ => none
  enter := fun _ path => if path = "/srv".toList then some "/srv" else none
  writable := fun _ _ => true
  succeeds := fun _ => true

def plainShell : Dialect String where
  own := fun name => name = ['c', 'd']
  utility := fun _ words state =>
    (words[1]?.bind fun path => oneDirectory.enter state.dir path).map fun dir =>
      ⟨dir, state.env⟩
  cd_own := by decide
  nohup_foreign := by decide

theorem same_effect_plain :
    effect plainShell oneDirectory false ["docker", "pull"] ⟨some "/srv", none, none⟩
        = effect plainShell oneDirectory true ["docker", "pull"] ⟨some "/srv", none, none⟩ ↔
      Alike plainShell oneDirectory ["docker", "pull"] ⟨some "/srv", none, none⟩ :=
  same_effect_iff plainShell oneDirectory ["docker", "pull"] ⟨some "/srv", none, none⟩
    (by decide) (by decide)

/-- A compose project brought up from its folder and left behind: on an old agent `nohup` is
given the `cd`. -/
theorem detached_elsewhere :
    ¬ ∀ (shell : Dialect String) (host : Framework.Shell.Host String) (argv : List String)
        (opts : ExecOptions), argv ≠ [] → (∀ entry ∈ opts.entries, isName entry.1.toList) →
      effect shell host false argv opts = effect shell host true argv opts := by
  intro h_same
  have h_docker := h_same plainShell oneDirectory ["docker", "compose", "up"]
    ⟨some "/srv", none, some "/tmp/up.log"⟩ (by decide) (by decide)
  rw [effect_old (by decide) (by decide), effect_new (by decide), Except.ok.injEq] at h_docker
  exact same_never (by decide) rfl rfl h_docker

end ServerCentral.Host
