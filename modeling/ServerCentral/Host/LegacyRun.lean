import ServerCentral.Framework.ShellRuns
import ServerCentral.Host.ShellQuote

/-!
# Running an argv on an old agent

`run` sends an argv as it is to an agent that advertises `execArgv`, and as a command string
to one that does not. What the string does under a shell is to be what the agent does with the
argv: the same program with the same arguments, directory and variables, nothing where the
directory cannot be entered, and for a detached command all of it in the background with both
streams in the log.

`same_effect_iff` says when that is so. A detached command keeps neither a directory nor
variables: `nohup` stands in front of the `cd` or of the assignments, where the shell no longer
reads them, and the redirection belongs to the last command of the list alone.
-/

open Framework.Shell

namespace ServerCentral.Host

variable {Dir : Type*} {shell : Dialect Dir} {host : Framework.Shell.Host Dir}
  {argv : List String} {opts : ExecOptions}

/-! ### What is sent -/

inductive Request
  | exec (command : String)
  | execArgv (argv : List String) (opts : ExecOptions)
  deriving DecidableEq, Repr

/-- `HostAgent.run`, up to what it sends. -/
def run (hasExecArgv : Bool) (argv : List String) (opts : ExecOptions) :
    Except String Request := do
  if argv = [] then throw "Cannot run an empty argv"
  if hasExecArgv then pure (.execArgv argv opts)
  else
    let command ← shellCommandFor argv opts
    match opts.detach with
    | some logPath =>
      pure (.exec ("nohup " ++ command ++ " >" ++ shQuote logPath ++ " 2>&1 &"))
    | none => pure (.exec command)

/-! ### What the agent does -/

/-- `Bun.spawn`: the directory is entered first, and nothing starts where that fails. An
empty directory counts as none. -/
def spawn (host : Framework.Shell.Host Dir) (argv : List String) (opts : ExecOptions)
    (streams : Streams Dir) (background : Bool) : List (Event Dir) :=
  let env := host.env.assign (entryTexts opts)
  match opts.directory with
  | none => [.started ⟨argvTexts argv, host.dir, env, streams, background⟩]
  | some cwd =>
    match host.enter host.dir cwd.toList with
    | none => []
    | some dir => [.entered dir, .started ⟨argvTexts argv, dir, env, streams, background⟩]

def runExecArgv (host : Framework.Shell.Host Dir) (argv : List String) (opts : ExecOptions) :
    List (Event Dir) :=
  if argv = [] then [] else spawn host argv opts .inherited false

/-- The log is opened before the command starts, in the agent's own directory. -/
def runDetached (host : Framework.Shell.Host Dir) (argv : List String) (opts : ExecOptions)
    (logPath : String) : List (Event Dir) :=
  if argv = [] then []
  else if host.writable host.dir logPath.toList then
    let log := .file host.dir logPath.toList
    spawn host argv opts ⟨log, log⟩ true
  else []

/-- What serving a request comes to; a command string runs under `sh -c`. -/
def serve (shell : Dialect Dir) (host : Framework.Shell.Host Dir) :
    Request → Option (List (Event Dir))
  | .exec command => runLine shell host command.toList
  | .execArgv argv opts =>
    match opts.detach with
    | some logPath => some (runDetached host argv opts logPath)
    | none => some (runExecArgv host argv opts)

/-- What `run` comes to with such an agent, each program by what it becomes. -/
def effect (shell : Dialect Dir) (host : Framework.Shell.Host Dir) (hasExecArgv : Bool)
    (argv : List String) (opts : ExecOptions) : Except String (Option (List (Event Dir))) :=
  (run hasExecArgv argv opts).map fun request =>
    (serve shell host request).map (List.map Event.settled)

/-! ### The command string of a detached command -/

/-- The word `nohup`. -/
def nohupWord : Word := [.plain 'n', .plain 'o', .plain 'h', .plain 'u', .plain 'p']

def logTokens (logPath : String) : List Token :=
  [.operator ['>'], .word (quotedWord logPath.toList), .number [.plain '2'], .operator ['>', '&'],
    .word [.plain '1']]

theorem tokens_detached {command : String} {out : List Token} {last : Word}
    (h : scan .between command.toList = some (.word last, out)) (logPath : String) :
    tokens ("nohup " ++ command ++ " >" ++ shQuote logPath ++ " 2>&1 &").toList
      = some (.word nohupWord :: (out ++ [.word last]) ++ logTokens logPath ++
          [.operator ['&']]) := by
  have h_nohup : scan .between "nohup ".toList = some (.between, [.word nohupWord]) := by rfl
  have h_to : scan (.word last) " >".toList = some (.operator ['>'], [.word last]) := by rfl
  have h_log : scan (.operator ['>']) (shQuote logPath).toList
      = some (.word (quotedWord logPath.toList), [.operator ['>']]) := by
    have h_open : step (.operator ['>']) '\x27' = some (.single [], [.operator ['>']]) := by rfl
    have h_close (inside : Word) : scan (.single inside) ['\x27'] = some (.word inside, []) := rfl
    rw [toList_shQuote, List.cons_append, scan_cons h_open,
      scan_append_some (scan_quoteChars logPath.toList []) (h_close _)]
    rfl
  have h_rest (word : Word) : scan (.word word) " 2>&1 &".toList
      = some (.operator ['&'], [.word word, .number [.plain '2'], .operator ['>', '&'],
          .word [.plain '1']]) := by rfl
  have h_all := scan_append_some h_nohup (scan_append_some h (scan_append_some h_to
    (scan_append_some h_log (h_rest _))))
  have h_text : ("nohup " ++ command ++ " >" ++ shQuote logPath ++ " 2>&1 &").toList
      = "nohup ".toList ++ (command.toList ++ (" >".toList ++ ((shQuote logPath).toList ++
          " 2>&1 &".toList))) := by
    simp only [String.toList_append, List.append_assoc]
  rw [h_text, tokens_of_scan h_all rfl]
  simp [logTokens]

def logRedirects (logPath : String) : List Redirect :=
  [⟨none, ['>'], quotedWord logPath.toList⟩, ⟨some [.plain '2'], ['>', '&'], [.plain '1']⟩]

theorem read_log (command : Command) (logPath : String) :
    command.read (logTokens logPath)
      = some { command with redirects := command.redirects ++ logRedirects logPath } := by
  simp [logTokens, logRedirects, Command.read, Command.redirect, redirections]

theorem read_nohup (rest : List Token) :
    simpleCommand (.word nohupWord :: rest)
      = Command.read { Command.empty with words := [nohupWord] } rest := by
  have h_free : isReserved (.word nohupWord) = false := by decide
  have h_word : nohupWord.assignment = none := by decide
  simp [simpleCommand, h_free, Command.read, Command.add, Command.empty, h_word]

/-- Without a directory the assignments stand behind `nohup`, where they are its operands. -/
def nohupCommand (argv : List String) (opts : ExecOptions) (logPath : String) : Command where
  assignments := []
  words := nohupWord :: ((entryTexts opts).map (fun entry => assignmentWord entry.1 entry.2) ++
    (argvTexts argv).map quotedWord)
  redirects := logRedirects logPath

/-- With a directory `nohup` is given the `cd`, and the command itself has the redirections. -/
def detachedCommands (argv : List String) (opts : ExecOptions) (logPath : String) :
    List Command :=
  match opts.directory with
  | none => [nohupCommand argv opts logPath]
  | some cwd =>
    [⟨[], [nohupWord, [.plain 'c', .plain 'd'], quotedWord cwd.toList], []⟩,
      { quotedCommand (entryTexts opts) (argvTexts argv) with redirects := logRedirects logPath }]

theorem simpleCommand_nohup (argv : List String) (opts : ExecOptions) (logPath : String) :
    simpleCommand (.word nohupWord ::
        (quotedTokens (entryTexts opts) (argvTexts argv) ++ logTokens logPath))
      = some (nohupCommand argv opts logPath) := by
  have h_words : quotedTokens (entryTexts opts) (argvTexts argv)
      = ((entryTexts opts).map (fun entry => assignmentWord entry.1 entry.2) ++
          (argvTexts argv).map quotedWord).map .word := by
    simp [quotedTokens, Function.comp_def]
  rw [read_nohup, h_words, read_operands _ (by simp), read_log]
  simp [nohupCommand, Command.empty]

/-- The first command of the list, where there is a directory. -/
def nohupCd (cwd : String) : List Token :=
  [.word nohupWord, .word [.plain 'c', .plain 'd'], .word (quotedWord cwd.toList)]

theorem commands_detached {argv : List String} {opts : ExecOptions} (h_argv : argv ≠ [])
    (h_names : ∀ entry ∈ opts.entries, envName entry.1) (logPath : String) :
    CommandLine.ofTokens (.word nohupWord ::
        (cdTokens opts ++ quotedTokens (entryTexts opts) (argvTexts argv)) ++
          logTokens logPath ++ [.operator ['&']])
      = some ⟨detachedCommands argv opts logPath, true⟩ := by
  have h_and : .operator ['&', '&']
      ∉ quotedTokens (entryTexts opts) (argvTexts argv) ++ logTokens logPath := by
    have h_log : .operator ['&', '&'] ∉ logTokens logPath := by simp [logTokens]
    simp [operator_notMem, h_log]
  have h_last : simpleCommand
        (quotedTokens (entryTexts opts) (argvTexts argv) ++ logTokens logPath)
      = some { quotedCommand (entryTexts opts) (argvTexts argv) with
          redirects := logRedirects logPath } := by
    rw [simpleCommand_quoted_append (entryTexts_names h_names) (argvTexts_some h_argv), read_log]
    rfl
  rw [ofTokens_background, cdTokens, detachedCommands]
  cases opts.directory with
  | none =>
    have h_split : (.word nohupWord ::
          (quotedTokens (entryTexts opts) (argvTexts argv) ++ logTokens logPath)).splitOn
            (.operator ['&', '&'])
        = [.word nohupWord ::
          (quotedTokens (entryTexts opts) (argvTexts argv) ++ logTokens logPath)] :=
      List.splitOn_eq_singleton (by simpa using h_and)
    simp [h_split, simpleCommand_nohup]
  | some cwd =>
    have h_cd : simpleCommand (nohupCd cwd)
        = some ⟨[], [nohupWord, [.plain 'c', .plain 'd'], quotedWord cwd.toList], []⟩ := by
      rw [nohupCd, read_nohup]
      simp [Command.read, Command.add, Command.empty]
    have h_split : (nohupCd cwd ++ .operator ['&', '&'] ::
          (quotedTokens (entryTexts opts) (argvTexts argv) ++ logTokens logPath)).splitOn
            (.operator ['&', '&'])
        = [nohupCd cwd,
          quotedTokens (entryTexts opts) (argvTexts argv) ++ logTokens logPath] := by
      rw [List.splitOn_append_cons_self_of_not_mem (by simp [nohupCd]),
        List.splitOn_eq_singleton h_and]
    rw [nohupCd] at h_split
    simp only [List.cons_append, List.nil_append] at h_split ⊢
    rw [h_split, ← nohupCd]
    simp [h_cd, h_last]

/-! ### Its literal reading -/

def nohup : List Char := ['n', 'o', 'h', 'u', 'p']

/-- An entry of the environment as the word it becomes behind `nohup`. -/
def entryWord (entry : List Char × List Char) : List Char := entry.1 ++ '=' :: entry.2

def logDuplicates (logPath : String) : List (Option (List Char) × List Char × List Char) :=
  [(none, ['>'], logPath.toList), (some ['2'], ['>', '&'], ['1'])]

/-- What a shell reads in the command string of a detached command. -/
def detachedLiterals (argv : List String) (opts : ExecOptions) (logPath : String) :
    List Literal :=
  match opts.directory with
  | none =>
    [⟨[], nohup :: ((entryTexts opts).map entryWord ++ argvTexts argv), logDuplicates logPath⟩]
  | some cwd =>
    [⟨[], [nohup, ['c', 'd'], cwd.toList], []⟩,
      ⟨entryTexts opts, argvTexts argv, logDuplicates logPath⟩]

theorem inert_name {name : List Char} (h : isName name) :
    (name.map Letter.plain).all Letter.inert := by
  have h_special : ['~', '*', '?', '[', '{'].all fun c => !(c.isAlphanum || c == '_') := by decide
  have h_letter : ∀ c : Char, (c.isAlphanum || c == '_') = true → Letter.inert (.plain c) := by
    intro c h_c
    rw [Letter.inert, Bool.not_eq_true', Bool.eq_false_iff, Ne, List.contains_iff_mem]
    intro h_mem
    have h_fails := List.all_eq_true.mp h_special c h_mem
    rw [h_c] at h_fails
    cases h_fails
  rw [List.all_map, List.all_eq_true]
  intro c h_c
  exact h_letter c (name_letter h c h_c)

theorem text_assignmentWord (entry : List Char × List Char) :
    Word.text (assignmentWord entry.1 entry.2) = entryWord entry := by
  have h_value := text_quotedWord entry.2
  have h_name := text_plain entry.1
  rw [Word.text] at h_value h_name
  rw [assignmentWord, Word.text, List.map_append, List.map_cons, h_name, h_value, entryWord]
  rfl

theorem inert_assignmentWord {name : List Char} (h : isName name) (value : List Char) :
    (assignmentWord name value).all Letter.inert := by
  have h_name := inert_name h
  have h_value := inert_quotedWord value
  rw [assignmentWord, List.all_append, List.all_cons, h_name, h_value]
  rfl

theorem literal_detached {argv : List String} {opts : ExecOptions}
    (h_names : ∀ entry ∈ opts.entries, envName entry.1) (logPath : String) :
    (detachedCommands argv opts logPath).mapM Command.literal
      = some (detachedLiterals argv opts logPath) := by
  have h_log : (logRedirects logPath).all fun redirect => redirect.target.all Letter.inert := by
    have h_path := inert_quotedWord logPath.toList
    simp [logRedirects, h_path, Letter.inert]
  have h_duplicates : (logRedirects logPath).map (fun redirect =>
      (redirect.number.map Word.text, redirect.symbol, redirect.target.text))
        = logDuplicates logPath := by
    have h_path := text_quotedWord logPath.toList
    have h_one : Word.text [.plain '1'] = ['1'] := by rfl
    have h_two : Word.text [.plain '2'] = ['2'] := by rfl
    simp [logRedirects, logDuplicates, h_path, h_one, h_two]
  have h_nohup : nohupWord.text = nohup := by decide
  rw [detachedCommands, detachedLiterals]
  cases opts.directory with
  | none =>
    have h_inert : (nohupCommand argv opts logPath).inert := by
      have h_entries : ∀ entry ∈ entryTexts opts,
          (assignmentWord entry.1 entry.2).all Letter.inert :=
        fun entry h_entry =>
          inert_assignmentWord (entryTexts_names h_names entry h_entry) entry.2
      have h_argv : ∀ text ∈ argvTexts argv, (quotedWord text).all Letter.inert :=
        fun text _ => inert_quotedWord text
      have h_first : nohupWord.all Letter.inert := by decide
      rw [Command.inert, nohupCommand, h_log]
      simp only [List.all_cons, List.all_append, List.all_map, h_first, Bool.and_true,
        Bool.true_and, Bool.and_eq_true, List.all_nil]
      exact ⟨List.all_eq_true.mpr h_entries, List.all_eq_true.mpr h_argv⟩
    have h_literal : (nohupCommand argv opts logPath).literal
        = some ⟨[], nohup :: ((entryTexts opts).map entryWord ++ argvTexts argv),
            logDuplicates logPath⟩ := by
      rw [Command.literal, if_pos h_inert, nohupCommand]
      simp [h_duplicates, h_nohup, Function.comp_def, text_assignmentWord]
    simp [h_literal]
  | some cwd =>
    have h_first : Command.literal
        ⟨[], [nohupWord, [.plain 'c', .plain 'd'], quotedWord cwd.toList], []⟩
          = some ⟨[], [nohup, ['c', 'd'], cwd.toList], []⟩ := by
      have h_cwd := inert_quotedWord cwd.toList
      have h_inert : Command.inert
          ⟨[], [nohupWord, [.plain 'c', .plain 'd'], quotedWord cwd.toList], []⟩ := by
        simp [Command.inert, h_cwd, Letter.inert, nohupWord]
      have h_cd : Word.text [.plain 'c', .plain 'd'] = ['c', 'd'] := by rfl
      rw [Command.literal, if_pos h_inert]
      simp [h_nohup, h_cd]
    have h_last : Command.literal
        { quotedCommand (entryTexts opts) (argvTexts argv) with redirects := logRedirects logPath }
          = some ⟨entryTexts opts, argvTexts argv, logDuplicates logPath⟩ := by
      have h_inert : Command.inert { quotedCommand (entryTexts opts) (argvTexts argv) with
          redirects := logRedirects logPath } := by
        rw [Command.inert, h_log]
        simp [quotedCommand, quotedWord, Letter.inert]
      rw [Command.literal, if_pos h_inert]
      simp [h_duplicates, quotedCommand, Function.comp_def]
    simp [h_first, h_last]

/-! ### What `run` sends to an old agent -/

/-- What a shell reads in the command string of `run`. -/
def legacyLiterals (argv : List String) (opts : ExecOptions) : List Literal :=
  match opts.detach with
  | some logPath => detachedLiterals argv opts logPath
  | none => intended argv opts

theorem run_legacy (h_argv : argv ≠ []) (h_names : ∀ entry ∈ opts.entries, envName entry.1) :
    ∃ command, run false argv opts = .ok (.exec command) ∧
      literalLine command.toList = some (legacyLiterals argv opts, opts.detach.isSome) := by
  rw [run, if_neg h_argv, legacyLiterals]
  cases opts.detach with
  | none =>
    obtain ⟨command, h_ok, h_read⟩ := literalLine_command h_argv h_names
    refine ⟨command, ?_, h_read⟩
    rw [h_ok]
    rfl
  | some logPath =>
    obtain ⟨command, out, last, h_ok, h_scan, h_tokens⟩ := scan_command h_argv h_names
    refine ⟨"nohup " ++ command ++ " >" ++ shQuote logPath ++ " 2>&1 &", ?_, ?_⟩
    · rw [h_ok]
      rfl
    · rw [literalLine, commandLine, tokens_detached h_scan, Option.bind_some, h_tokens,
        commands_detached h_argv h_names, Option.bind_some, literal_detached h_names]
      rfl

end ServerCentral.Host
