import ServerCentral.Framework.ShellWords
import Mathlib.Data.List.TakeWhile

/-!
# Command lines of the POSIX shell

The tokens of a text, read as a list of simple commands between `&&`, with one `&` behind them
all at most. A command has its assignments in front, its words and its redirections; whatever
else a shell understands (pipes, `;`, `||`, groups, compound commands, here-documents) is
outside the fragment and reads as `none`.

`CommandLine.literal` goes one step further: it is `some` only where no letter of the text is
left to expand, so that each word stands for exactly its own text.
-/

namespace Framework.Shell

/-! ### Assignments -/

/-- The shell's names: a letter or an underscore, then letters, digits and underscores. -/
def isName : List Char → Bool
  | [] => false
  | c :: rest => (c.isAlpha || c == '_') && rest.all fun d => d.isAlphanum || d == '_'

/-- A word with an unquoted name and an unquoted equals sign in front of its value. -/
def Word.assignment (word : Word) : Option (List Char × Word) :=
  let name : Word := word.takeWhile (· ≠ .plain '=')
  match word.dropWhile (· ≠ .plain '=') with
  | [] => none
  | _ :: value =>
    if isName name.text ∧ name = name.text.map .plain then some (name.text, value) else none

/-! ### Simple commands -/

structure Redirect where
  number : Option Word
  symbol : List Char
  target : Word
  deriving DecidableEq, Repr

structure Command where
  assignments : List (List Char × Word)
  words : List Word
  redirects : List Redirect
  deriving DecidableEq, Repr

def Command.empty : Command := ⟨[], [], []⟩

/-- One more word. An assignment counts as one only in front of the command's name. -/
def Command.add (command : Command) (word : Word) : Command :=
  match command.words, word.assignment with
  | [], some assignment =>
    { command with assignments := command.assignments ++ [assignment] }
  | _, _ => { command with words := command.words ++ [word] }

def Command.redirect (command : Command) (redirect : Redirect) : Command :=
  { command with redirects := command.redirects ++ [redirect] }

/-- The redirections of the fragment; a here-document is not among them. -/
def redirections : List (List Char) :=
  [['<'], ['>'], ['>', '>'], ['<', '&'], ['>', '&'], ['<', '>'], ['>', '|']]

def Command.read (command : Command) : List Token → Option Command
  | [] => some command
  | .word word :: rest => (command.add word).read rest
  | .operator symbol :: .word target :: rest =>
    if redirections.contains symbol then
      (command.redirect ⟨none, symbol, target⟩).read rest
    else none
  | .number digits :: .operator symbol :: .word target :: rest =>
    if redirections.contains symbol then
      (command.redirect ⟨some digits, symbol, target⟩).read rest
    else none
  | _ => none

/-- The words that start a compound command where a command's name could stand. -/
def reserved : List (List Char) :=
  ["!", "\x7b", "\x7d", "case", "do", "done", "elif", "else", "esac", "fi", "for", "if", "in", "then",
    "until", "while"].map String.toList

def isReserved : Token → Bool
  | .word word => word.text.map .plain = word ∧ reserved.contains word.text
  | _ => false

def simpleCommand : List Token → Option Command
  | [] => none
  | token :: rest => if isReserved token then none else Command.empty.read (token :: rest)

/-! ### Lists of commands -/

structure CommandLine where
  commands : List Command
  background : Bool
  deriving DecidableEq, Repr

/-- The tokens in front of a last `&`, and whether there is one. -/
def foreground (tokens : List Token) : List Token × Bool :=
  if tokens.getLast? = some (.operator ['&']) then (tokens.dropLast, true) else (tokens, false)

def CommandLine.ofTokens (tokens : List Token) : Option CommandLine :=
  ((foreground tokens).1.splitOn (.operator ['&', '&'])).mapM simpleCommand |>.map
    fun commands => ⟨commands, (foreground tokens).2⟩

def commandLine (text : List Char) : Option CommandLine :=
  (tokens text).bind CommandLine.ofTokens

/-! ### Without expansion -/

/-- A letter that no later step gives a meaning: tildes, patterns and braces are unquoted. -/
def Letter.inert : Letter → Bool
  | .quoted _ => true
  | .plain c => !(['~', '*', '?', '[', '{'].contains c)

structure Literal where
  assignments : List (List Char × List Char)
  words : List (List Char)
  redirects : List (Option (List Char) × List Char × List Char)
  deriving DecidableEq, Repr

def Command.inert (command : Command) : Bool :=
  (command.assignments.all fun assignment => assignment.2.all Letter.inert) &&
    (command.words.all fun word => word.all Letter.inert) &&
      command.redirects.all fun redirect => redirect.target.all Letter.inert

def Command.literal (command : Command) : Option Literal :=
  if command.inert then
    some {
      assignments := command.assignments.map fun assignment => (assignment.1, assignment.2.text)
      words := command.words.map Word.text
      redirects := command.redirects.map fun redirect =>
        (redirect.number.map Word.text, redirect.symbol, redirect.target.text) }
  else none

/-- What a text runs when nothing in it expands: its commands, and whether they stay behind. -/
def literalLine (text : List Char) : Option (List Literal × Bool) :=
  (commandLine text).bind fun line =>
    (line.commands.mapM Command.literal).map fun commands => (commands, line.background)

/-! ### Quoted words -/

/-- A word all of whose letters are quoted. -/
def quotedWord (text : List Char) : Word := text.map .quoted

@[simp] theorem text_quotedWord (text : List Char) : (quotedWord text).text = text := by
  simp [quotedWord, Word.text, Function.comp_def, Letter.char]

@[simp] theorem text_plain (text : List Char) : Word.text (text.map .plain) = text := by
  simp [Word.text, Function.comp_def, Letter.char]

theorem inert_quotedWord (text : List Char) : (quotedWord text).all Letter.inert := by
  simp [quotedWord, Letter.inert]

/-- A quoted word is no assignment, whatever it says. -/
@[simp] theorem assignment_quotedWord (text : List Char) : (quotedWord text).assignment = none := by
  have h_drop : (quotedWord text).dropWhile (· ≠ .plain '=') = [] := by
    rw [List.dropWhile_eq_nil_iff]
    intro letter h_letter
    obtain ⟨c, -, rfl⟩ := List.mem_map.mp h_letter
    rfl
  rw [Word.assignment, h_drop]

/-- The word of an assignment. -/
def assignmentWord (name value : List Char) : Word :=
  name.map .plain ++ .plain '=' :: quotedWord value

theorem assignment_assignmentWord {name : List Char} (h : isName name) (value : List Char) :
    (assignmentWord name value).assignment = some (name, quotedWord value) := by
  have h_equals : ∀ letter ∈ name.map Letter.plain, letter ≠ .plain '=' := by
    intro letter h_letter
    obtain ⟨c, h_c, rfl⟩ := List.mem_map.mp h_letter
    rintro ⟨⟩
    cases name with
    | nil => cases h_c
    | cons d rest =>
      simp only [isName, Bool.and_eq_true, List.all_eq_true] at h
      obtain rfl | h_rest := List.mem_cons.mp h_c
      · exact absurd h.1 (by decide)
      · exact absurd (h.2 _ h_rest) (by decide)
  have h_take : (assignmentWord name value).takeWhile (· ≠ .plain '=') = name.map .plain := by
    rw [assignmentWord, List.takeWhile_append_of_pos (by simpa using h_equals)]
    simp
  have h_drop : (assignmentWord name value).dropWhile (· ≠ .plain '=')
      = .plain '=' :: quotedWord value := by
    rw [assignmentWord, List.dropWhile_append_of_pos (by simpa using h_equals)]
    simp
  rw [Word.assignment, h_take, h_drop]
  simp [h]

/-! ### Reading a command back -/

theorem read_words (texts : List (List Char)) (command : Command) (rest : List Token) :
    command.read (texts.map (fun text => .word (quotedWord text)) ++ rest)
      = Command.read
          { command with words := command.words ++ texts.map quotedWord } rest := by
  induction texts generalizing command with
  | nil => simp
  | cons text texts ih =>
    have h_add : command.add (quotedWord text)
        = { command with words := command.words ++ [quotedWord text] } := by
      rw [Command.add, assignment_quotedWord]
      cases command.words <;> rfl
    rw [List.map_cons, List.cons_append, Command.read, h_add, ih]
    simp

theorem read_assignments {entries : List (List Char × List Char)}
    (h : ∀ entry ∈ entries, isName entry.1) {command : Command} (h_words : command.words = [])
    (rest : List Token) :
    command.read (entries.map (fun entry => .word (assignmentWord entry.1 entry.2)) ++ rest)
      = Command.read
          { command with
            assignments := command.assignments ++
              entries.map fun entry => (entry.1, quotedWord entry.2) } rest := by
  induction entries generalizing command with
  | nil => simp
  | cons entry entries ih =>
    have h_name : isName entry.1 := h entry List.mem_cons_self
    have h_add : command.add (assignmentWord entry.1 entry.2)
        = { command with
            assignments := command.assignments ++ [(entry.1, quotedWord entry.2)] } := by
      rw [Command.add, h_words, assignment_assignmentWord h_name]
    rw [List.map_cons, List.cons_append, Command.read, h_add,
      ih (fun other h_other => h other (List.mem_cons_of_mem _ h_other)) (by exact h_words)]
    simp

theorem isReserved_quotedWord (text : List Char) : isReserved (.word (quotedWord text)) = false := by
  rw [isReserved, text_quotedWord]
  cases text with
  | nil => rfl
  | cons c text => simp [quotedWord]

/-- An assignment is no reserved word: these hold no equals sign. -/
theorem isReserved_assignmentWord (name value : List Char) :
    isReserved (.word (assignmentWord name value)) = false := by
  have h_equals : '=' ∈ (assignmentWord name value).text := by
    simp [assignmentWord, Word.text, Letter.char]
  have h_none : ∀ word ∈ reserved, '=' ∉ word := by decide
  rw [isReserved, decide_eq_false_iff_not]
  rintro ⟨-, h_reserved⟩
  exact h_none _ (List.contains_iff_mem.mp h_reserved) h_equals

/-- A command of quoted words behind its assignments, as a shell takes it apart. -/
def quotedCommand (entries : List (List Char × List Char)) (argv : List (List Char)) : Command where
  assignments := entries.map fun entry => (entry.1, quotedWord entry.2)
  words := argv.map quotedWord
  redirects := []

/-- The words of that command, each one token. -/
def quotedTokens (entries : List (List Char × List Char)) (argv : List (List Char)) :
    List Token :=
  entries.map (fun entry => .word (assignmentWord entry.1 entry.2)) ++
    argv.map fun text => .word (quotedWord text)

theorem simpleCommand_quoted_append {entries : List (List Char × List Char)}
    (h : ∀ entry ∈ entries, isName entry.1) {argv : List (List Char)} (h_argv : argv ≠ [])
    (rest : List Token) :
    simpleCommand (quotedTokens entries argv ++ rest) = (quotedCommand entries argv).read rest := by
  have h_first : ∀ token ∈ quotedTokens entries argv, isReserved token = false := by
    intro token h_token
    rw [quotedTokens, List.mem_append] at h_token
    obtain h_entry | h_text := h_token
    · obtain ⟨entry, -, rfl⟩ := List.mem_map.mp h_entry
      exact isReserved_assignmentWord entry.1 entry.2
    · obtain ⟨text, -, rfl⟩ := List.mem_map.mp h_text
      exact isReserved_quotedWord text
  have h_read : Command.empty.read (quotedTokens entries argv ++ rest)
      = (quotedCommand entries argv).read rest := by
    rw [quotedTokens, List.append_assoc, read_assignments h rfl, read_words]
    simp [quotedCommand, Command.empty]
  cases h_tokens : quotedTokens entries argv with
  | nil => simp [quotedTokens, h_argv] at h_tokens
  | cons token tokens =>
    rw [List.cons_append, simpleCommand, h_first token (by simp [h_tokens]), ← List.cons_append,
      ← h_tokens]
    simpa using h_read

theorem simpleCommand_quoted {entries : List (List Char × List Char)}
    (h : ∀ entry ∈ entries, isName entry.1) {argv : List (List Char)} (h_argv : argv ≠ []) :
    simpleCommand (quotedTokens entries argv) = some (quotedCommand entries argv) := by
  have h_read := simpleCommand_quoted_append h h_argv []
  rw [List.append_nil] at h_read
  exact h_read

theorem literal_quotedCommand (entries : List (List Char × List Char))
    (argv : List (List Char)) :
    (quotedCommand entries argv).literal = some ⟨entries, argv, []⟩ := by
  have h_inert : (quotedCommand entries argv).inert := by
    simp [Command.inert, quotedCommand, quotedWord, Letter.inert]
  rw [Command.literal, if_pos h_inert]
  simp [quotedCommand, Function.comp_def]

/-- A line of two commands. -/
theorem ofTokens_and {first second : List Token} {a b : Command}
    (h_first : .operator ['&', '&'] ∉ first) (h_second : .operator ['&', '&'] ∉ second)
    (h_last : second.getLast? ≠ some (.operator ['&'])) (h_some : second ≠ [])
    (h_a : simpleCommand first = some a) (h_b : simpleCommand second = some b) :
    CommandLine.ofTokens (first ++ .operator ['&', '&'] :: second) = some ⟨[a, b], false⟩ := by
  have h_fore : foreground (first ++ .operator ['&', '&'] :: second)
      = (first ++ .operator ['&', '&'] :: second, false) := by
    rw [foreground, if_neg]
    rw [List.getLast?_append_of_ne_nil _ (List.cons_ne_nil _ _), List.getLast?_cons_of_ne_nil h_some]
    exact h_last
  have h_split : (first ++ .operator ['&', '&'] :: second).splitOn (.operator ['&', '&'])
      = [first, second] := by
    rw [List.splitOn_append_cons_self_of_not_mem h_first, List.splitOn_eq_singleton h_second]
  rw [CommandLine.ofTokens, h_fore, h_split]
  simp [h_a, h_b]

/-- A line of one command. -/
theorem ofTokens_one {tokens : List Token} {a : Command}
    (h_and : .operator ['&', '&'] ∉ tokens) (h_last : tokens.getLast? ≠ some (.operator ['&']))
    (h_a : simpleCommand tokens = some a) : CommandLine.ofTokens tokens = some ⟨[a], false⟩ := by
  rw [CommandLine.ofTokens, foreground, if_neg h_last, List.splitOn_eq_singleton h_and]
  simp [h_a]

/-- A line behind which an `&` stands. -/
theorem ofTokens_background (tokens : List Token) :
    CommandLine.ofTokens (tokens ++ [.operator ['&']])
      = ((tokens.splitOn (.operator ['&', '&'])).mapM simpleCommand).map
          fun commands => ⟨commands, true⟩ := by
  have h_fore : foreground (tokens ++ [.operator ['&']]) = (tokens, true) := by
    rw [foreground, if_pos (by simp)]
    simp
  rw [CommandLine.ofTokens, h_fore]

/-- Behind the name of a command a word is a word, also one that looks like an assignment. -/
theorem read_operands (words : List Word) {command : Command} (h : command.words ≠ [])
    (rest : List Token) :
    command.read (words.map .word ++ rest)
      = Command.read { command with words := command.words ++ words } rest := by
  induction words generalizing command with
  | nil => simp
  | cons word words ih =>
    have h_add : command.add word = { command with words := command.words ++ [word] } := by
      rw [Command.add]
      cases h_words : command.words with
      | nil => exact absurd h_words h
      | cons name operands => rfl
    rw [List.map_cons, List.cons_append, Command.read, h_add, ih (by simp)]
    simp

end Framework.Shell
