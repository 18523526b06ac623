import Mathlib.Data.List.Basic
import Mathlib.Data.Option.Basic

/-!
# Token recognition of the POSIX shell

The shell cuts a command text into words and operators one character at a time. `Mode` is where
it stands between two characters, and `step` reads one more. A letter of a word remembers
whether it was quoted, since a quoted letter is no longer syntax for what follows.

The fragment holds single quotes, the backslash, comments, line joining and the operators. A
double quote, a dollar sign or a backquote that is itself unquoted may start an expansion and
is outside the fragment: reading a text that has one gives `none`.
-/

namespace Framework.Shell

/-! ### Words and tokens -/

inductive Letter
  | plain (char : Char)
  | quoted (char : Char)
  deriving DecidableEq, Repr

def Letter.char : Letter → Char
  | .plain c => c
  | .quoted c => c

abbrev Word := List Letter

/-- The text of a word once its quotes are removed. -/
def Word.text (word : Word) : List Char := word.map Letter.char

inductive Token
  | word (letters : Word)
  /-- The digits in front of a redirection. -/
  | number (digits : Word)
  | operator (symbol : List Char)
  | newline
  deriving DecidableEq, Repr

def isBlank (c : Char) : Bool := c = ' ' || c = '\t'

/-- The characters that start an operator. -/
def isOperator (c : Char) : Bool := ['&', '|', ';', '<', '>', '(', ')'].contains c

/-- The characters that may start an expansion. -/
def expands (c : Char) : Bool := ['"', '$', '\x60'].contains c

/-- The operators of more than one character, and what such a one starts with. -/
def longOperators : List (List Char) :=
  [['&', '&'], ['|', '|'], [';', ';'], ['<', '<'], ['>', '>'], ['<', '&'], ['>', '&'],
    ['<', '>'], ['<', '<', '-'], ['>', '|']]

/-! ### Reading one character -/

/-- Where the shell stands between two characters. -/
inductive Mode
  | between
  | word (letters : Word)
  /-- Inside single quotes. -/
  | single (letters : Word)
  | operator (symbol : List Char)
  | comment
  /-- Behind a backslash, which the character before it left the shell in `back`. -/
  | escaped (back : Mode)
  deriving DecidableEq, Repr

/-- A character that continues no token. -/
def opening (c : Char) : Option (Mode × List Token) :=
  if isBlank c then some (.between, [])
  else if c = '\n' then some (.between, [.newline])
  else if c = '\x27' then some (.single [], [])
  else if c = '\\' then some (.escaped .between, [])
  else if expands c then none
  else if c = '#' then some (.comment, [])
  else if isOperator c then some (.operator [c], [])
  else some (.word [.plain c], [])

/-- The word that an operator ends: digits in front of a redirection are its number. -/
def ended (letters : Word) (c : Char) : Token :=
  if (c = '<' ∨ c = '>') ∧ letters ≠ [] ∧
      ∀ letter ∈ letters, letter = .plain letter.char ∧ letter.char.isDigit then
    .number letters
  else .word letters

/-- A character behind a backslash. -/
def Mode.quote (c : Char) : Mode → Option (Mode × List Token)
  | .between => some (.word [.quoted c], [])
  | .word letters => some (.word (letters ++ [.quoted c]), [])
  | .operator symbol => some (.word [.quoted c], [.operator symbol])
  | _ => none

def step : Mode → Char → Option (Mode × List Token)
  | .between, c => opening c
  | .word letters, c =>
    if isBlank c then some (.between, [.word letters])
    else if c = '\n' then some (.between, [.word letters, .newline])
    else if c = '\x27' then some (.single letters, [])
    else if c = '\\' then some (.escaped (.word letters), [])
    else if expands c then none
    else if isOperator c then some (.operator [c], [ended letters c])
    else some (.word (letters ++ [.plain c]), [])
  | .single letters, c =>
    if c = '\x27' then some (.word letters, [])
    else some (.single (letters ++ [.quoted c]), [])
  | .operator symbol, c =>
    if c = '\\' then some (.escaped (.operator symbol), [])
    else if symbol ++ [c] ∈ longOperators then some (.operator (symbol ++ [c]), [])
    else (opening c).map fun read => (read.1, .operator symbol :: read.2)
  | .comment, c => if c = '\n' then some (.between, [.newline]) else some (.comment, [])
  | .escaped back, c =>
    -- an escaped line end joins the two lines
    if c = '\n' then some (back, []) else back.quote c

/-! ### Reading a text -/

def scan : Mode → List Char → Option (Mode × List Token)
  | mode, [] => some (mode, [])
  | mode, c :: text => (step mode c).bind fun first =>
    (scan first.1 text).map fun rest => (rest.1, first.2 ++ rest.2)

/-- The end of the text ends the token in progress. -/
def Mode.finish : Mode → Option (List Token)
  | .between => some []
  | .comment => some []
  | .word letters => some [.word letters]
  | .operator symbol => some [.operator symbol]
  | .single _ => none
  | .escaped _ => none

/-- The tokens of a text, outside the fragment or with an open quote `none`. -/
def tokens (text : List Char) : Option (List Token) :=
  (scan .between text).bind fun read => read.1.finish.map (read.2 ++ ·)

@[simp] theorem scan_nil (mode : Mode) : scan mode [] = some (mode, []) := rfl

theorem scan_cons {mode next : Mode} {c : Char} {out : List Token}
    (h : step mode c = some (next, out)) (text : List Char) :
    scan mode (c :: text) = (scan next text).map fun read => (read.1, out ++ read.2) := by
  rw [scan, h, Option.bind_some]

/-- Reading a text in two parts. -/
theorem scan_append {mode next : Mode} {first : List Char} {out : List Token}
    (h : scan mode first = some (next, out)) (rest : List Char) :
    scan mode (first ++ rest)
      = (scan next rest).map fun read => (read.1, out ++ read.2) := by
  induction first generalizing mode out with
  | nil =>
    obtain ⟨rfl, rfl⟩ : mode = next ∧ [] = out := by simpa using h
    simp
  | cons c first ih =>
    rw [scan] at h
    obtain ⟨⟨middle, head⟩, h_step, h⟩ := Option.bind_eq_some_iff.mp h
    obtain ⟨⟨last, tail⟩, h_tail, h⟩ := Option.map_eq_some_iff.mp h
    obtain ⟨rfl, rfl⟩ : last = next ∧ head ++ tail = out := by simpa using h
    rw [List.cons_append, scan_cons h_step, ih h_tail, Option.map_map]
    congr 1
    funext read
    simp

theorem scan_append_some {mode next last : Mode} {first rest : List Char}
    {out more : List Token} (h : scan mode first = some (next, out))
    (h_rest : scan next rest = some (last, more)) :
    scan mode (first ++ rest) = some (last, out ++ more) := by
  rw [scan_append h, h_rest]
  rfl

theorem tokens_of_scan {text : List Char} {mode : Mode} {out last : List Token}
    (h : scan .between text = some (mode, out)) (h_last : mode.finish = some last) :
    tokens text = some (out ++ last) := by
  rw [tokens, h, Option.bind_some, h_last, Option.map_some]

/-! ### Plain letters -/

/-- The characters that stay what they are outside quotes. -/
def isPlain (c : Char) : Bool :=
  !(isBlank c || isOperator c || expands c || ['\n', '\x27', '\\', '#'].contains c)

/-- A test that no character of the shell's syntax passes leaves plain characters only. -/
theorem isPlain_of {p : Char → Bool}
    (h : [' ', '\t', '&', '|', ';', '<', '>', '(', ')', '"', '$', '\x60', '\n', '\x27', '\\',
      '#'].all fun d => !p d) {c : Char} (h_c : p c) : isPlain c := by
  have h_not : ∀ d ∈ [' ', '\t', '&', '|', ';', '<', '>', '(', ')', '"', '$', '\x60', '\n',
      '\x27', '\\', '#'], c ≠ d := by
    intro d h_d h_eq
    have h_fails := List.all_eq_true.mp h d h_d
    rw [← h_eq, h_c] at h_fails
    cases h_fails
  simp only [List.mem_cons, List.not_mem_nil, or_false, forall_eq_or_imp, forall_eq] at h_not
  simp [isPlain, isBlank, isOperator, expands, h_not]

theorem opening_plain {c : Char} (h : isPlain c) : opening c = some (.word [.plain c], []) := by
  simp only [isPlain, Bool.not_eq_true', Bool.or_eq_false_iff, List.contains_cons,
    beq_eq_false_iff_ne] at h
  obtain ⟨⟨⟨h_blank, h_operator⟩, h_expands⟩, h_newline, h_quote, h_escape, h_comment, -⟩ := h
  simp [opening, *]

theorem step_word_plain {c : Char} (h : isPlain c) (letters : Word) :
    step (.word letters) c = some (.word (letters ++ [.plain c]), []) := by
  simp only [isPlain, Bool.not_eq_true', Bool.or_eq_false_iff, List.contains_cons,
    beq_eq_false_iff_ne] at h
  obtain ⟨⟨⟨h_blank, h_operator⟩, h_expands⟩, h_newline, h_quote, h_escape, -⟩ := h
  simp [step, *]

theorem scan_word_plain {text : List Char} (h : ∀ c ∈ text, isPlain c) (letters : Word) :
    scan (.word letters) text = some (.word (letters ++ text.map .plain), []) := by
  induction text generalizing letters with
  | nil => simp
  | cons c text ih =>
    have h_c := step_word_plain (h c List.mem_cons_self) letters
    rw [scan_cons h_c, ih fun d h_d => h d (List.mem_cons_of_mem _ h_d)]
    simp

/-- An unquoted text of plain characters is one word in progress. -/
theorem scan_plain {text : List Char} (h_text : text ≠ []) (h : ∀ c ∈ text, isPlain c) :
    scan .between text = some (.word (text.map .plain), []) := by
  cases text with
  | nil => exact absurd rfl h_text
  | cons c text =>
    have h_c : step .between c = some (.word [.plain c], []) :=
      opening_plain (h c List.mem_cons_self)
    rw [scan_cons h_c, scan_word_plain fun d h_d => h d (List.mem_cons_of_mem _ h_d)]
    rfl

/-! ### Words in a row -/

theorem scan_word_blank (letters : Word) :
    scan (.word letters) [' '] = some (.between, [.word letters]) := rfl

/-- Texts that are each one word, with one blank between two of them, are these words: no
word is merged, cut or lost. -/
theorem scan_words {texts : List (List Char)} {words : List Word} (h_texts : texts ≠ [])
    (h : List.Forall₂ (fun text word => scan .between text = some (.word word, [])) texts words) :
    ∃ out last, scan .between ([' '].intercalate texts) = some (.word last, out) ∧
      out ++ [.word last] = words.map Token.word := by
  induction h with
  | nil => exact absurd rfl h_texts
  | @cons text word texts words h_word h_words ih =>
    cases h_words with
    | nil => exact ⟨[], word, by simpa using h_word, rfl⟩
    | @cons next other rest others h_next h_rest =>
      obtain ⟨out, last, h_scan, h_out⟩ := ih (List.cons_ne_nil _ _)
      have h_first : scan .between (text ++ [' ']) = some (.between, [.word word]) :=
        scan_append_some h_word (scan_word_blank word)
      refine ⟨.word word :: out, last, ?_, by simp [h_out]⟩
      have h_join := scan_append_some h_first h_scan
      simpa using h_join

end Framework.Shell
