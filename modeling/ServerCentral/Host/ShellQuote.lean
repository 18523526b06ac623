import ServerCentral.Backends.Zfs
import ServerCentral.Framework.ShellCommands

/-!
# An argv as a command string

An agent without `execArgv` can only be given a command string. `shellCommandFor` writes an
argv, the working directory and the environment as one, with every value in single quotes.

`command_words` reads the string back by the shell's own rules: for every argv it is the `cd`
there should be, then the assignments of the environment and the words of the argv, and no
letter of it is left to expand.
-/

open Framework.Shell

namespace ServerCentral.Host

open Backends (leadTail)
open Backends.Zfs (stringify)

/-- The options of `run`; the environment is its entries in their order. -/
structure ExecOptions where
  cwd : Option String
  env : Option (List (String × String))
  /-- The log of a detached command. -/
  detach : Option String
  deriving DecidableEq, Repr

def ExecOptions.entries (opts : ExecOptions) : List (String × String) := opts.env.getD []

/-- A character of a value between single quotes. -/
def quoteChar (c : Char) : List Char :=
  if c = '\x27' then ['\x27', '\\', '\x27', '\x27'] else [c]

def shQuote (value : String) : String :=
  "'" ++ String.ofList (value.toList.flatMap quoteChar) ++ "'"

/-- `ENV_NAME_RE`. -/
def envName (name : String) : Bool :=
  leadTail (fun c => c.isAlpha || c == '_') (fun c => c.isAlphanum || c == '_') name.toList

/-- One entry of the environment, in front of the command. -/
def envPart (entry : String × String) : Except String String :=
  let shown := stringify entry.1
  if envName entry.1 then .ok (entry.1 ++ "=" ++ shQuote entry.2)
  else .error s!"Invalid environment variable name: {shown}"

def shellCommandFor (argv : List String) (opts : ExecOptions) : Except String String := do
  if argv = [] then throw "Cannot run an empty argv"
  let parts ← opts.entries.mapM envPart
  let command := " ".intercalate (parts ++ argv.map shQuote)
  match opts.cwd with
  | some cwd => if cwd ≠ "" then pure ("cd " ++ shQuote cwd ++ " && " ++ command) else pure command
  | none => pure command

example : shellCommandFor ["zfs", "destroy", "tank/it's mine"] ⟨none, none, none⟩
    = .ok "'zfs' 'destroy' 'tank/it'\\''s mine'" := by decide +kernel

/-! ### A value in quotes -/

theorem toList_shQuote (value : String) :
    (shQuote value).toList = '\x27' :: value.toList.flatMap quoteChar ++ ['\x27'] := by
  simp [shQuote]

/-- Between the quotes every character stands for itself: an apostrophe leaves the quotes,
is escaped, and enters them again. -/
theorem scan_quoteChars (text : List Char) (letters : Word) :
    scan (.single letters) (text.flatMap quoteChar)
      = some (.single (letters ++ quotedWord text), []) := by
  induction text generalizing letters with
  | nil => simp [quotedWord]
  | cons c text ih =>
    have h_c : scan (.single letters) (quoteChar c)
        = some (.single (letters ++ [.quoted c]), []) := by
      rw [quoteChar]
      split
      · next h_apostrophe =>
        subst h_apostrophe
        rfl
      · next h_other => simp [scan, step, h_other]
    have h_cons := scan_append_some h_c (ih (letters ++ [.quoted c]))
    simpa [quotedWord] using h_cons

theorem scan_shQuote_word (value : String) (letters : Word) :
    scan (.word letters) (shQuote value).toList
      = some (.word (letters ++ quotedWord value.toList), []) := by
  have h_open : step (.word letters) '\x27' = some (.single letters, []) := rfl
  have h_close (inside : Word) : scan (.single inside) ['\x27'] = some (.word inside, []) := rfl
  rw [toList_shQuote, List.cons_append, scan_cons h_open,
    scan_append_some (scan_quoteChars value.toList letters) (h_close _)]
  rfl

/-- A quoted value is one word, and the word's text is the value. -/
theorem scan_shQuote (value : String) :
    scan .between (shQuote value).toList = some (.word (quotedWord value.toList), []) := by
  have h_open : step .between '\x27' = some (.single [], []) := rfl
  have h_close (inside : Word) : scan (.single inside) ['\x27'] = some (.word inside, []) := rfl
  rw [toList_shQuote, List.cons_append, scan_cons h_open,
    scan_append_some (scan_quoteChars value.toList []) (h_close _)]
  rfl

/-! ### An entry of the environment -/

theorem envName_eq (name : String) : envName name = isName name.toList := by
  rw [envName]
  cases name.toList <;> rfl

theorem name_letter {name : List Char} (h : isName name) :
    ∀ c ∈ name, (c.isAlphanum || c == '_') = true := by
  intro c h_c
  cases name with
  | nil => cases h_c
  | cons d rest =>
    simp only [isName, Bool.and_eq_true, List.all_eq_true] at h
    obtain rfl | h_rest := List.mem_cons.mp h_c
    · have h_first := h.1
      simp only [Char.isAlphanum, Bool.or_eq_true] at h_first ⊢
      exact h_first.imp_left .inl
    · exact h.2 c h_rest

theorem isPlain_name {name : List Char} (h : isName name) : ∀ c ∈ name, isPlain c := by
  have h_letter : ∀ c : Char, (c.isAlphanum || c == '_') = true → isPlain c := fun c h_c =>
    isPlain_of (p := fun c => c.isAlphanum || c == '_') (by decide) h_c
  intro c h_c
  exact h_letter c (name_letter h c h_c)

theorem scan_envPart {name : String} (h : envName name) (value : String) :
    scan .between (name ++ "=" ++ shQuote value).toList
      = some (.word (assignmentWord name.toList value.toList), []) := by
  rw [envName_eq] at h
  have h_some : name.toList ≠ [] := by
    intro h_nil
    rw [h_nil] at h
    cases h
  have h_name := scan_plain h_some (isPlain_name h)
  have h_equals : scan (.word (name.toList.map .plain)) ['=']
      = some (.word (name.toList.map .plain ++ [.plain '=']), []) := rfl
  have h_value := scan_shQuote_word value (name.toList.map .plain ++ [.plain '='])
  have h_all := scan_append_some (scan_append_some h_name h_equals) h_value
  simpa [assignmentWord] using h_all

/-! ### The whole command -/

theorem mapM_envPart {entries : List (String × String)} (h : ∀ entry ∈ entries, envName entry.1) :
    entries.mapM envPart = .ok (entries.map fun entry => entry.1 ++ "=" ++ shQuote entry.2) := by
  induction entries with
  | nil => rfl
  | cons entry entries ih =>
    have h_entry : envPart entry = .ok (entry.1 ++ "=" ++ shQuote entry.2) := by
      simp [envPart, h entry List.mem_cons_self]
    rw [List.mapM_cons, h_entry, ih fun other h_other => h other (List.mem_cons_of_mem _ h_other)]
    rfl

/-- The first name outside the shell's syntax is the one the error names. -/
theorem mapM_envPart_refused {entries : List (String × String)}
    (h : ∃ entry ∈ entries, ¬ envName entry.1) :
    ∃ entry ∈ entries, ¬ envName entry.1 ∧
      entries.mapM envPart
        = .error ("Invalid environment variable name: " ++ stringify entry.1) := by
  induction entries with
  | nil =>
    obtain ⟨entry, h_entry, -⟩ := h
    cases h_entry
  | cons first entries ih =>
    by_cases h_first : envName first.1
    · have h_rest : ∃ entry ∈ entries, ¬ envName entry.1 := by
        obtain ⟨entry, h_entry, h_name⟩ := h
        obtain rfl | h_entry := List.mem_cons.mp h_entry
        · exact absurd h_first h_name
        · exact ⟨entry, h_entry, h_name⟩
      obtain ⟨entry, h_entry, h_name, h_error⟩ := ih h_rest
      have h_ok : envPart first = .ok (first.1 ++ "=" ++ shQuote first.2) := by
        simp [envPart, h_first]
      refine ⟨entry, List.mem_cons_of_mem _ h_entry, h_name, ?_⟩
      rw [List.mapM_cons, h_ok, h_error]
      rfl
    · have h_error : envPart first
          = .error ("Invalid environment variable name: " ++ stringify first.1) := by
        rw [envPart, if_neg h_first]
        rfl
      refine ⟨first, List.mem_cons_self, h_first, ?_⟩
      rw [List.mapM_cons, h_error]
      rfl

/-- The texts of the entries and of the argv. -/
def entryTexts (opts : ExecOptions) : List (List Char × List Char) :=
  opts.entries.map fun entry => (entry.1.toList, entry.2.toList)

def argvTexts (argv : List String) : List (List Char) := argv.map String.toList

/-- The directory to change to; an empty one counts as none. -/
def ExecOptions.directory (opts : ExecOptions) : Option String := opts.cwd.filter (· ≠ "")

/-- What stands in front of the command itself. -/
def cdPrefix (opts : ExecOptions) : String :=
  match opts.directory with
  | some cwd => "cd " ++ shQuote cwd ++ " && "
  | none => ""

/-- The command without the `cd` in front. -/
def quotedParts (argv : List String) (opts : ExecOptions) : List String :=
  opts.entries.map (fun entry => entry.1 ++ "=" ++ shQuote entry.2) ++ argv.map shQuote

theorem shellCommandFor_eq {argv : List String} {opts : ExecOptions} (h_argv : argv ≠ [])
    (h_names : ∀ entry ∈ opts.entries, envName entry.1) :
    shellCommandFor argv opts = .ok (cdPrefix opts ++ " ".intercalate (quotedParts argv opts)) := by
  have h_parts := mapM_envPart h_names
  rw [shellCommandFor, if_neg h_argv, h_parts, cdPrefix, ExecOptions.directory, quotedParts]
  cases opts.cwd with
  | none => simp [bind, pure, Except.bind, Except.pure]
  | some cwd =>
    by_cases h_cwd : cwd = ""
    · simp [bind, pure, Except.bind, Except.pure, h_cwd, Option.filter]
    · simp [bind, pure, Except.bind, Except.pure, h_cwd, Option.filter, String.append_assoc]

/-- The part behind the `cd`, up to its last word, which the end of the text ends. -/
theorem scan_quotedParts {argv : List String} {opts : ExecOptions} (h_argv : argv ≠ [])
    (h_names : ∀ entry ∈ opts.entries, envName entry.1) :
    ∃ out last, scan .between (" ".intercalate (quotedParts argv opts)).toList
        = some (.word last, out) ∧
      out ++ [.word last] = quotedTokens (entryTexts opts) (argvTexts argv) := by
  have h_words : List.Forall₂ (fun text word => scan .between text = some (.word word, []))
      ((quotedParts argv opts).map String.toList)
      ((entryTexts opts).map (fun entry => assignmentWord entry.1 entry.2) ++
        (argvTexts argv).map quotedWord) := by
    rw [quotedParts, List.map_append]
    apply List.rel_append
    · rw [entryTexts, List.map_map, List.map_map, List.forall₂_map_left_iff,
        List.forall₂_map_right_iff, List.forall₂_same]
      intro entry h_entry
      exact scan_envPart (h_names entry h_entry) entry.2
    · rw [argvTexts, List.map_map, List.map_map, List.forall₂_map_left_iff,
        List.forall₂_map_right_iff, List.forall₂_same]
      intro argument _
      exact scan_shQuote argument
  have h_some : (quotedParts argv opts).map String.toList ≠ [] := by simp [quotedParts, h_argv]
  obtain ⟨out, last, h_scan, h_out⟩ := scan_words h_some h_words
  refine ⟨out, last, by simpa [String.toList_intercalate] using h_scan, ?_⟩
  rw [h_out, quotedTokens]
  simp [Function.comp_def]

/-- The tokens of the `cd` in front. -/
def cdTokens (opts : ExecOptions) : List Token :=
  match opts.directory with
  | some cwd =>
    [.word [.plain 'c', .plain 'd'], .word (quotedWord cwd.toList), .operator ['&', '&']]
  | none => []

theorem scan_cdPrefix (opts : ExecOptions) :
    scan .between (cdPrefix opts).toList = some (.between, cdTokens opts) := by
  rw [cdPrefix, cdTokens]
  cases opts.directory with
  | none => rfl
  | some cwd =>
    have h_cd : scan .between "cd ".toList
        = some (.between, [.word [.plain 'c', .plain 'd']]) := by rfl
    have h_and (letters : Word) : scan (.word letters) " && ".toList
        = some (.between, [.word letters, .operator ['&', '&']]) := by rfl
    have h_all := scan_append_some h_cd (scan_append_some (scan_shQuote cwd) (h_and _))
    simpa using h_all

/-- The tokens of the whole command. -/
theorem scan_command {argv : List String} {opts : ExecOptions} (h_argv : argv ≠ [])
    (h_names : ∀ entry ∈ opts.entries, envName entry.1) :
    ∃ command out last, shellCommandFor argv opts = .ok command ∧
      scan .between command.toList = some (.word last, out) ∧
      out ++ [.word last] = cdTokens opts ++ quotedTokens (entryTexts opts) (argvTexts argv) := by
  obtain ⟨out, last, h_scan, h_out⟩ := scan_quotedParts h_argv h_names
  have h_both := scan_append_some (scan_cdPrefix opts) h_scan
  refine ⟨_, cdTokens opts ++ out, last, shellCommandFor_eq h_argv h_names, ?_, ?_⟩
  · rw [String.toList_append]
    exact h_both
  · rw [List.append_assoc, h_out]

/-! ### What a shell makes of it -/

/-- The command of the `cd` in front. -/
def cdCommand (cwd : String) : Command :=
  ⟨[], [[.plain 'c', .plain 'd'], quotedWord cwd.toList], []⟩

theorem simpleCommand_cd (cwd : String) :
    simpleCommand [.word [.plain 'c', .plain 'd'], .word (quotedWord cwd.toList)]
      = some (cdCommand cwd) := by
  have h_free : isReserved (.word [.plain 'c', .plain 'd']) = false := by decide
  have h_word : Word.assignment [.plain 'c', .plain 'd'] = none := by decide
  simp [simpleCommand, h_free, Command.read, Command.add, Command.empty, h_word, cdCommand]

/-- `cd`, where there is a directory to change to, and the command itself. -/
def commandsOf (argv : List String) (opts : ExecOptions) : List Command :=
  (opts.directory.map cdCommand).toList ++ [quotedCommand (entryTexts opts) (argvTexts argv)]

theorem entryTexts_names {opts : ExecOptions} (h : ∀ entry ∈ opts.entries, envName entry.1) :
    ∀ entry ∈ entryTexts opts, isName entry.1 := by
  intro entry h_entry
  obtain ⟨source, h_source, rfl⟩ := List.mem_map.mp h_entry
  rw [← envName_eq]
  exact h source h_source

theorem argvTexts_some {argv : List String} (h : argv ≠ []) : argvTexts argv ≠ [] := by
  simpa [argvTexts] using h

/-- The tokens of a command hold words only, so its operators are those written around it. -/
theorem operator_notMem (symbol : List Char) (entries : List (List Char × List Char))
    (argv : List (List Char)) : .operator symbol ∉ quotedTokens entries argv := by
  simp [quotedTokens]

theorem commands_read {argv : List String} {opts : ExecOptions} (h_argv : argv ≠ [])
    (h_names : ∀ entry ∈ opts.entries, envName entry.1) :
    CommandLine.ofTokens (cdTokens opts ++ quotedTokens (entryTexts opts) (argvTexts argv))
      = some ⟨commandsOf argv opts, false⟩ := by
  have h_some : quotedTokens (entryTexts opts) (argvTexts argv) ≠ [] := by
    simp [quotedTokens, argvTexts_some h_argv]
  have h_command :=
    simpleCommand_quoted (entryTexts_names h_names) (argvTexts_some h_argv)
  have h_and := operator_notMem ['&', '&'] (entryTexts opts) (argvTexts argv)
  have h_last : (quotedTokens (entryTexts opts) (argvTexts argv)).getLast?
      ≠ some (.operator ['&']) := by
    intro h_end
    exact operator_notMem _ _ _ (List.mem_of_getLast? h_end)
  rw [cdTokens, commandsOf]
  cases opts.directory with
  | none => exact ofTokens_one h_and h_last h_command
  | some cwd =>
    exact ofTokens_and (by simp) h_and h_last h_some (simpleCommand_cd cwd) h_command

/-- What a command of `shellCommandFor` should say: `cd` to the directory, where one is given,
and then the environment's assignments in front of exactly the words of the argv. -/
def intended (argv : List String) (opts : ExecOptions) : List Literal :=
  (opts.directory.map fun cwd => ⟨[], ["cd".toList, cwd.toList], []⟩).toList ++
    [⟨entryTexts opts, argvTexts argv, []⟩]

theorem literal_cdCommand (cwd : String) :
    (cdCommand cwd).literal = some ⟨[], ["cd".toList, cwd.toList], []⟩ := by
  have h_inert : (cdCommand cwd).inert := by
    have h_cwd := inert_quotedWord cwd.toList
    simp [Command.inert, cdCommand, h_cwd, Letter.inert]
  rw [Command.literal, if_pos h_inert]
  have h_cd : Word.text [.plain 'c', .plain 'd'] = "cd".toList := by decide
  simp [cdCommand, h_cd]

theorem literal_commands (argv : List String) (opts : ExecOptions) :
    (commandsOf argv opts).mapM Command.literal = some (intended argv opts) := by
  have h_command := literal_quotedCommand (entryTexts opts) (argvTexts argv)
  rw [commandsOf, intended]
  cases opts.directory with
  | none => simp [h_command]
  | some cwd => simp [h_command, literal_cdCommand]

theorem literalLine_command {argv : List String} {opts : ExecOptions} (h_argv : argv ≠ [])
    (h_names : ∀ entry ∈ opts.entries, envName entry.1) :
    ∃ command, shellCommandFor argv opts = .ok command ∧
      literalLine command.toList = some (intended argv opts, false) := by
  obtain ⟨command, out, last, h_ok, h_scan, h_tokens⟩ := scan_command h_argv h_names
  refine ⟨command, h_ok, ?_⟩
  have h_read : commandLine command.toList = some ⟨commandsOf argv opts, false⟩ := by
    rw [commandLine, tokens_of_scan h_scan rfl, Option.bind_some, h_tokens,
      commands_read h_argv h_names]
  rw [literalLine, h_read, Option.bind_some, literal_commands]
  rfl

/-- **The string says what was meant.** A shell reads the command of every argv as the `cd` to
its directory, the assignments of its environment and the words of the argv, none of them
expanded, cut, merged or lost; a name that a shell cannot assign to is refused. -/
theorem command_words (argv : List String) (opts : ExecOptions) (h_argv : argv ≠ []) :
    ((∀ entry ∈ opts.entries, isName entry.1.toList) →
      ∃ command, shellCommandFor argv opts = .ok command ∧
        literalLine command.toList = some (intended argv opts, false)) ∧
    ((∃ entry ∈ opts.entries, ¬ isName entry.1.toList) →
      ∃ entry ∈ opts.entries, ¬ isName entry.1.toList ∧
        shellCommandFor argv opts
          = .error ("Invalid environment variable name: " ++ stringify entry.1)) := by
  simp only [← envName_eq]
  constructor
  · exact literalLine_command h_argv
  · intro h_bad
    obtain ⟨entry, h_entry, h_name, h_error⟩ := mapM_envPart_refused h_bad
    refine ⟨entry, h_entry, h_name, ?_⟩
    rw [shellCommandFor, if_neg h_argv, h_error]
    rfl

theorem command_words_cat :
    ∃ command, shellCommandFor ["cat", "it's; $HOME"] ⟨some "/srv", some [("A", "=")], none⟩
        = .ok command ∧
      literalLine command.toList
        = some (intended ["cat", "it's; $HOME"] ⟨some "/srv", some [("A", "=")], none⟩, false) :=
  (command_words ["cat", "it's; $HOME"] ⟨some "/srv", some [("A", "=")], none⟩
    (by decide)).1 (by decide)

end ServerCentral.Host
