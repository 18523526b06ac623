import Mathlib.Data.List.TakeWhile
import ServerCentral.Framework.Removing

/-!
# Terminal colours in a log

`ansiToSegments` cuts a text with escape sequences into segments with a style. It removes operating
system commands and escapes of two bytes first, then acts on the sequences that set a style and
drops the other control sequences.

A `Token` is a character or a well-formed escape sequence, and `AnsiSound` what is expected of a
text written with them. `ansi_sound_iff` says for which sequences the parser does what is expected.
-/

open Framework

namespace ServerCentral.Web

structure AnsiStyle where
  color : Option String := none
  bgColor : Option String := none
  bold : Option Bool := none
  italic : Option Bool := none
  underline : Option Bool := none
  dim : Option Bool := none
  deriving DecidableEq, Repr

structure AnsiSegment where
  text : List Char
  style : AnsiStyle
  deriving DecidableEq, Repr

/-- Standard 16-color palette. -/
def FG : List (ℕ × String) :=
  [(30, "#3b4048"), (31, "#e06c75"), (32, "#98c379"), (33, "#d19a66"),
    (34, "#61afef"), (35, "#c678dd"), (36, "#56b6c2"), (37, "#abb2bf"),
    (90, "#5c6370"), (91, "#e06c75"), (92, "#98c379"), (93, "#e5c07b"),
    (94, "#61afef"), (95, "#c678dd"), (96, "#56b6c2"), (97, "#ffffff")]

def BG : List (ℕ × String) :=
  [(40, "#3b4048"), (41, "#e06c75"), (42, "#98c379"), (43, "#d19a66"),
    (44, "#61afef"), (45, "#c678dd"), (46, "#56b6c2"), (47, "#abb2bf"),
    (100, "#5c6370"), (101, "#e06c75"), (102, "#98c379"), (103, "#e5c07b"),
    (104, "#61afef"), (105, "#c678dd"), (106, "#56b6c2"), (107, "#ffffff")]

def ESC : Char := '\x1b'

def BEL : Char := '\x07'

/-! ### The parser -/

/-- One round of the loop of `applySgr`. -/
def applyCode (next : AnsiStyle) (code : ℕ) : AnsiStyle :=
  if code = 0 then {}
  else if code = 1 then { next with bold := some true }
  else if code = 2 then { next with dim := some true }
  else if code = 3 then { next with italic := some true }
  else if code = 4 then { next with underline := some true }
  else if code = 22 then { next with bold := some false, dim := some false }
  else if code = 23 then { next with italic := some false }
  else if code = 24 then { next with underline := some false }
  else if code = 39 then { next with color := none }
  else if code = 49 then { next with bgColor := none }
  else match FG.lookup code, BG.lookup code with
    | some color, _ => { next with color := some color }
    | none, some color => { next with bgColor := some color }
    | none, none => next

/-- An empty parameter list means reset. -/
def codesOf (params : List ℕ) : List ℕ := if params = [] then [0] else params

def applySgr (style : AnsiStyle) (params : List ℕ) : AnsiStyle :=
  (codesOf params).foldl applyCode style

/-- `[0-9;]` -/
def isParam (c : Char) : Bool := c.isDigit || c = ';'

/-- `[@-Z\\-_]` -/
def isLone (c : Char) : Bool := ('@' ≤ c && c ≤ 'Z') || ('\\' ≤ c && c ≤ '_')

/-- `[^\x07\x1b]` -/
def isPayload (c : Char) : Bool := c ≠ BEL && c ≠ ESC

/-- The length of a match of `/\x1b\][^\x07\x1b]*(?:\x07|\x1b\\)/`. -/
def oscLength : List Char → ℕ
  | e :: b :: rest =>
    if e = ESC ∧ b = ']' then
      let payload := rest.takeWhile isPayload
      match rest.dropWhile isPayload with
      | c :: after =>
        if c = BEL then payload.length + 3
        else if after.head? = some '\\' then payload.length + 4
        else 0
      | [] => 0
    else 0
  | _ => 0

/-- The length of a match of `/\x1b[@-Z\\-_]/`. -/
def loneLength : List Char → ℕ
  | e :: c :: _ => if e = ESC ∧ isLone c then 2 else 0
  | _ => 0

/-- The groups of a match of `/\x1b\[([0-9;]*)([A-Za-z])/`. -/
def csiMatch : List Char → Option (List Char × Char)
  | e :: b :: rest =>
    if e = ESC ∧ b = '[' then
      match rest.dropWhile isParam with
      | final :: _ => if final.isAlpha then some (rest.takeWhile isParam, final) else none
      | [] => none
    else none
  | _ => none

/-- `m[1] ? m[1].split(";").map((p) => Number(p) || 0) : []` -/
def numbers (params : List Char) : List ℕ :=
  if params = [] then [] else (params.splitOn ';').map fun p => Nat.ofDigitChars 10 p 0

/-- The text since the last match, if there is any. -/
def flush (pending : List Char) (style : AnsiStyle) : List AnsiSegment :=
  if pending = [] then [] else [⟨pending, style⟩]

/-- The loop over the matches, after the characters of a match that are read already. -/
def scan : ℕ → List Char → AnsiStyle → List Char → List AnsiSegment
  | _, pending, style, [] => flush pending style
  | read + 1, pending, style, _ :: rest => scan read pending style rest
  | 0, pending, style, c :: rest =>
    match csiMatch (c :: rest) with
    | some (params, final) =>
      let next := if final = 'm' then applySgr style (numbers params) else style
      flush pending style ++ scan (params.length + 2) [] next rest
    | none => scan 0 (pending ++ [c]) style rest

def ansiToSegments (input : List Char) : List AnsiSegment :=
  -- Drop OSC and lone escapes up front; they don't affect styling.
  let text := removeMatches loneLength (removeMatches oscLength input)
  scan 0 [] {} text

/-! ### Escape sequences -/

/-- The bytes of a control sequence. -/
structure CsiBytes (params inter : List Char) (final : Char) : Prop where
  params : ∀ c ∈ params, '0' ≤ c ∧ c ≤ '?'
  inter : ∀ c ∈ inter, ' ' ≤ c ∧ c ≤ '/'
  final : '@' ≤ final ∧ final ≤ '~'

/-- A character, or a well-formed escape sequence. -/
inductive Token where
  | char (c : Char) (h : c ≠ ESC)
  | csi (params inter : List Char) (final : Char) (h : CsiBytes params inter final)
  /-- Ended by a bell, or by a string terminator. -/
  | osc (payload : List Char) (bell : Bool) (h : ∀ c ∈ payload, c ≠ BEL ∧ c ≠ ESC)
  | escape (c : Char) (h : '0' ≤ c ∧ c ≤ '~' ∧ c ≠ '[' ∧ c ≠ ']')

namespace Token

def raw : Token → List Char
  | char c _ => [c]
  | csi params inter final _ => ESC :: '[' :: (params ++ inter ++ [final])
  | osc payload bell _ => ESC :: ']' :: (payload ++ if bell then [BEL] else [ESC, '\\'])
  | escape c _ => [ESC, c]

/-- What is expected to be left of it. -/
def text : Token → List Char
  | char c _ => [c]
  | _ => []

/-- The parameters of a sequence that sets a style. -/
def sgr? : Token → Option (List ℕ)
  | csi params inter final _ =>
    if params.all isParam ∧ inter = [] ∧ final = 'm' then some (numbers params) else none
  | _ => none

end Token

/-- A text written with tokens. -/
def render (tokens : List Token) : List Char := tokens.flatMap Token.raw

/-- How many parameters an extended colour has, if the parameters begin with one: `38;5;n`,
`48;5;n`, `38;2;r;g;b` or `48;2;r;g;b`. -/
def extendedLength : List ℕ → ℕ
  | selector :: kind :: rest =>
    if selector = 38 ∨ selector = 48 then
      if kind = 5 ∧ 1 ≤ rest.length then 3
      else if kind = 2 ∧ 3 ≤ rest.length then 5
      else 0
    else 0
  | _ => 0

/-- The style after a token: the codes apply in order, but those of extended colours. -/
def Token.restyle (style : AnsiStyle) (token : Token) : AnsiStyle :=
  token.sgr?.elim style fun params =>
    (removeMatches extendedLength (codesOf params)).foldl applyCode style

/-- The characters that are left of tokens, each with its style. -/
def paint (left : Token → List Char) (restyle : AnsiStyle → Token → AnsiStyle) :
    AnsiStyle → List Token → List (Char × AnsiStyle)
  | _, [] => []
  | style, token :: tokens =>
    (left token).map (fun c => (c, style)) ++ paint left restyle (restyle style token) tokens

/-- The characters of segments, each with its style. -/
def painted (segments : List AnsiSegment) : List (Char × AnsiStyle) :=
  segments.flatMap fun segment => segment.text.map fun c => (c, segment.style)

/-- **What is expected** of a text with escape sequences. -/
structure AnsiSound (tokens : List Token) : Prop where
  text : (ansiToSegments (render tokens)).flatMap AnsiSegment.text = tokens.flatMap Token.text
  style : painted (ansiToSegments (render tokens)) = paint Token.text Token.restyle {} tokens
  /-- No parameter of an extended colour is read as a style code of its own. -/
  extended : ∀ token ∈ tokens, ∀ params, token.sgr? = some params →
    ∀ code ∈ matched extendedLength (codesOf params), ∀ style, applyCode style code = style

/-- The codes that change a style. -/
def STYLE_CODES : List ℕ := [0, 1, 2, 3, 4, 22, 23, 24, 39, 49] ++ FG.map Prod.fst ++ BG.map Prod.fst

/-- A token the parser reads as it is meant. -/
def Token.Read : Token → Prop
  | .char _ _ => True
  | .csi params inter final _ => params.all isParam = true ∧ inter = [] ∧ final.isAlpha = true ∧
    (final = 'm' → ∀ code ∈ matched extendedLength (codesOf (numbers params)), code ∉ STYLE_CODES)
  | .osc _ _ _ => True
  | .escape c _ => isLone c = true

/-! ### The two removals -/

namespace Token

def isOsc : Token → Bool
  | osc _ _ _ => true
  | _ => false

/-- An escape of two bytes that is removed up front. -/
def isEscape : Token → Bool
  | escape c _ => isLone c
  | _ => false

end Token

/-- What follows `ESC` in a control sequence. -/
theorem csi_body {params inter : List Char} {final : Char} (h : CsiBytes params inter final) :
    ∀ c ∈ '[' :: (params ++ inter ++ [final]), c ≠ ESC := by
  have h_low : ∀ low c : Char, ESC < low → low ≤ c → c ≠ ESC := by
    rintro low c h_low h_c rfl
    exact absurd h_c (Char.not_le.mpr h_low)
  intro c h_c
  obtain rfl | h_c := List.mem_cons.mp h_c
  · decide
  obtain h_c | h_c := List.mem_append.mp h_c
  · obtain h_c | h_c := List.mem_append.mp h_c
    · exact h_low '0' c (by decide) (h.params c h_c).1
    · exact h_low ' ' c (by decide) (h.inter c h_c).1
  · rw [List.mem_singleton.mp h_c]
    exact h_low '@' final (by decide) h.final.1

theorem oscLength_plain {c : Char} (h : c ≠ ESC) (rest : List Char) : oscLength (c :: rest) = 0 := by
  cases rest with
  | nil => rfl
  | cons b rest => exact if_neg fun h_start => h h_start.1

theorem oscLength_other {c : Char} (h : c ≠ ']') (rest : List Char) :
    oscLength (ESC :: c :: rest) = 0 :=
  if_neg fun h_start => h h_start.2

theorem loneLength_plain {c : Char} (h : c ≠ ESC) (rest : List Char) :
    loneLength (c :: rest) = 0 := by
  cases rest with
  | nil => rfl
  | cons b rest => exact if_neg fun h_start => h h_start.1

theorem loneLength_other {c : Char} (h : isLone c = false) (rest : List Char) :
    loneLength (ESC :: c :: rest) = 0 :=
  if_neg fun h_start => absurd h_start.2 (by simp [h])

/-- A command ends at its first bell or terminator. -/
theorem oscLength_osc {payload : List Char} (h : ∀ c ∈ payload, c ≠ BEL ∧ c ≠ ESC) (bell : Bool)
    (rest : List Char) : oscLength ((Token.osc payload bell h).raw ++ rest) =
      (Token.osc payload bell h).raw.length := by
  have h_pass : ∀ c ∈ payload, isPayload c = true := by
    intro c h_c
    obtain ⟨h_bell, h_esc⟩ := h c h_c
    simp [isPayload, h_bell, h_esc]
  have h_end : ∀ c after, isPayload c = false →
      (payload ++ c :: after).takeWhile isPayload = payload ∧
        (payload ++ c :: after).dropWhile isPayload = c :: after := by
    intro c after h_c
    rw [List.takeWhile_append_of_pos h_pass, List.dropWhile_append_of_pos h_pass,
      List.takeWhile_cons_of_neg (Bool.eq_false_iff.mp h_c),
      List.dropWhile_cons_of_neg (Bool.eq_false_iff.mp h_c),
      List.append_nil]
    exact ⟨rfl, rfl⟩
  cases bell with
  | true =>
    obtain ⟨h_take, h_drop⟩ := h_end BEL rest (by decide)
    have h_raw : (Token.osc payload true h).raw ++ rest = ESC :: ']' :: (payload ++ BEL :: rest) := by
      simp [Token.raw]
    rw [h_raw, oscLength, if_pos ⟨rfl, rfl⟩, h_take, h_drop]
    simp [Token.raw]
  | false =>
    obtain ⟨h_take, h_drop⟩ := h_end ESC ('\\' :: rest) (by decide)
    have h_raw : (Token.osc payload false h).raw ++ rest =
        ESC :: ']' :: (payload ++ ESC :: '\\' :: rest) := by
      simp [Token.raw]
    rw [h_raw, oscLength, if_pos ⟨rfl, rfl⟩, h_take, h_drop]
    simp [Token.raw, ESC, BEL]

theorem render_cons (token : Token) (tokens : List Token) :
    render (token :: tokens) = token.raw ++ render tokens :=
  List.flatMap_cons

/-- The first removal takes the operating system commands. -/
theorem remove_osc (tokens : List Token) :
    removeMatches oscLength (render tokens) = render (tokens.filter fun token => !token.isOsc) := by
  induction tokens with
  | nil => rfl
  | cons token tokens ih =>
    rw [render_cons]
    cases token with
    | char c h =>
      rw [List.filter_cons_of_pos (by rfl), render_cons, ← ih]
      exact removeMatches_append (fun a h_a rest => by
        rw [List.mem_singleton.mp h_a]
        exact oscLength_plain h rest) _
    | csi params inter final h =>
      rw [List.filter_cons_of_pos (by rfl), render_cons, ← ih]
      show removeMatches oscLength (ESC :: ('[' :: (params ++ inter ++ [final]) ++ render tokens)) = _
      have h_start : oscLength (ESC :: ('[' :: (params ++ inter ++ [final]) ++ render tokens)) = 0 :=
        oscLength_other (by decide) _
      rw [removeMatches_keep h_start,
        removeMatches_append fun a h_a rest => oscLength_plain (csi_body h a h_a) rest]
      rfl
    | osc payload bell h =>
      rw [List.filter_cons_of_neg (by simp [Token.isOsc]), ← ih]
      exact removeMatches_match (List.cons_ne_nil _ _) (oscLength_osc h bell _)
    | escape c h =>
      rw [List.filter_cons_of_pos (by rfl), render_cons, ← ih]
      show removeMatches oscLength (ESC :: ([c] ++ render tokens)) = _
      have h_esc : c ≠ ESC := by
        rintro rfl
        exact absurd h.1 (by decide)
      have h_start : oscLength (ESC :: ([c] ++ render tokens)) = 0 := oscLength_other h.2.2.2 _
      rw [removeMatches_keep h_start,
        removeMatches_append fun a h_a rest => by
          rw [List.mem_singleton.mp h_a]
          exact oscLength_plain h_esc rest]
      rfl

/-- The second removal takes the escapes of two bytes it knows. -/
theorem remove_escape {tokens : List Token} (h_osc : ∀ token ∈ tokens, token.isOsc = false) :
    removeMatches loneLength (render tokens) = render (tokens.filter fun token => !token.isEscape) := by
  induction tokens with
  | nil => rfl
  | cons token tokens ih =>
    have ih := ih fun t h_t => h_osc t (List.mem_cons_of_mem _ h_t)
    rw [render_cons]
    cases token with
    | char c h =>
      rw [List.filter_cons_of_pos (by rfl), render_cons, ← ih]
      exact removeMatches_append (fun a h_a rest => by
        rw [List.mem_singleton.mp h_a]
        exact loneLength_plain h rest) _
    | csi params inter final h =>
      rw [List.filter_cons_of_pos (by rfl), render_cons, ← ih]
      show removeMatches loneLength (ESC :: ('[' :: (params ++ inter ++ [final]) ++ render tokens)) = _
      have h_start : loneLength (ESC :: ('[' :: (params ++ inter ++ [final]) ++ render tokens)) = 0 :=
        loneLength_other (by decide) _
      rw [removeMatches_keep h_start,
        removeMatches_append fun a h_a rest => loneLength_plain (csi_body h a h_a) rest]
      rfl
    | osc payload bell h => exact absurd (h_osc _ List.mem_cons_self) (by simp [Token.isOsc])
    | escape c h =>
      have h_esc : c ≠ ESC := by
        rintro rfl
        exact absurd h.1 (by decide)
      cases h_lone : isLone c with
      | true =>
        rw [List.filter_cons_of_neg (by simp [Token.isEscape, h_lone]), ← ih]
        exact removeMatches_match (List.cons_ne_nil _ _) (if_pos ⟨rfl, h_lone⟩)
      | false =>
        rw [List.filter_cons_of_pos (by simp [Token.isEscape, h_lone]), render_cons, ← ih]
        show removeMatches loneLength (ESC :: ([c] ++ render tokens)) = _
        have h_start : loneLength (ESC :: ([c] ++ render tokens)) = 0 := loneLength_other h_lone _
        rw [removeMatches_keep h_start,
          removeMatches_append fun a h_a rest => by
            rw [List.mem_singleton.mp h_a]
            exact loneLength_plain h_esc rest]
        rfl

/-! ### The loop -/

theorem csiMatch_plain {c : Char} (h : c ≠ ESC) (rest : List Char) : csiMatch (c :: rest) = none := by
  cases rest with
  | nil => rfl
  | cons b rest => exact if_neg fun h_start => h h_start.1

theorem csiMatch_other {c : Char} (h : c ≠ '[') (rest : List Char) :
    csiMatch (ESC :: c :: rest) = none :=
  if_neg fun h_start => h h_start.2

theorem notAlpha {c : Char} (h : c ≤ '?') : c.isAlpha = false := by
  have h_val : c.val ≤ 63 := h
  delta Char.isAlpha Char.isUpper Char.isLower
  grind

theorem notParam {c : Char} (h : c ≤ '/' ∨ '@' ≤ c) : isParam c = false := by
  have h_val : c.val ≤ 47 ∨ 64 ≤ c.val := h
  have h_semicolon : c ≠ ';' := by
    rintro rfl
    exact absurd h (by decide)
  have h_digit : c.isDigit = false := by
    delta Char.isDigit
    grind
  simp [isParam, h_digit, h_semicolon]

/-- Which control sequences match. -/
theorem csiMatch_csi {params inter : List Char} {final : Char} (h : CsiBytes params inter final)
    (rest : List Char) : csiMatch ((Token.csi params inter final h).raw ++ rest) =
      if params.all isParam = true ∧ inter = [] ∧ final.isAlpha = true then some (params, final)
      else none := by
  have h_raw : (Token.csi params inter final h).raw ++ rest =
      ESC :: '[' :: (params ++ (inter ++ final :: rest)) := by
    simp [Token.raw]
  have h_final : ¬ isParam final = true := by simp [notParam (.inr h.final.1)]
  rw [h_raw, csiMatch, if_pos ⟨rfl, rfl⟩]
  by_cases h_params : params.all isParam = true
  · have h_all := List.all_eq_true.mp h_params
    rw [List.dropWhile_append_of_pos h_all, List.takeWhile_append_of_pos h_all]
    cases inter with
    | nil =>
      rw [List.nil_append, List.dropWhile_cons_of_neg h_final, List.takeWhile_cons_of_neg h_final,
        List.append_nil]
      simp only [h_params, true_and]
    | cons i inter =>
      have h_i := (h.inter i List.mem_cons_self).2
      have h_stop : ¬ isParam i = true := by simp [notParam (.inl h_i)]
      rw [List.cons_append, List.dropWhile_cons_of_neg h_stop]
      have h_alpha : i.isAlpha = false := notAlpha (Char.le_trans h_i (by decide))
      simp [h_alpha]
  · -- a parameter byte that is neither a digit nor a semicolon is no letter either
    have h_some : params.dropWhile isParam ≠ [] := by
      intro h_nil
      exact h_params (List.all_eq_true.mpr (List.dropWhile_eq_nil_iff.mp h_nil))
    obtain ⟨d, after, h_drop⟩ := List.exists_cons_of_ne_nil h_some
    have h_mem : d ∈ params := (List.dropWhile_suffix isParam).subset (h_drop ▸ List.mem_cons_self)
    have h_alpha : d.isAlpha = false := notAlpha (h.params d h_mem).2
    rw [List.dropWhile_append, h_drop]
    simp [h_alpha, h_params]

theorem painted_append (segments rest : List AnsiSegment) :
    painted (segments ++ rest) = painted segments ++ painted rest :=
  List.flatMap_append

theorem painted_flush (pending : List Char) (style : AnsiStyle) :
    painted (flush pending style) = pending.map fun c => (c, style) := by
  rw [flush]
  split
  next h => simp [h, painted]
  next => simp [painted]

/-- The text since the last match comes first. -/
theorem painted_scan (text : List Char) (read : ℕ) (pending : List Char) (style : AnsiStyle) :
    painted (scan read pending style text) =
      pending.map (fun c => (c, style)) ++ painted (scan read [] style text) := by
  induction text generalizing read pending style with
  | nil =>
    rw [scan, scan, painted_flush, painted_flush]
    simp
  | cons c rest ih =>
    cases read with
    | succ read => exact ih read pending style
    | zero =>
      rw [scan, scan]
      cases csiMatch (c :: rest) with
      | none =>
        dsimp only
        rw [ih 0 (pending ++ [c]), ih 0 ([] ++ [c])]
        simp
      | some groups =>
        obtain ⟨params, final⟩ := groups
        dsimp only
        rw [painted_append, painted_append, painted_flush, painted_flush]
        simp

theorem scan_length (read : List Char) (pending : List Char) (style : AnsiStyle)
    (rest : List Char) : scan read.length pending style (read ++ rest) = scan 0 pending style rest := by
  induction read with
  | nil => rfl
  | cons c read ih => exact ih

theorem painted_keep {c : Char} {rest : List Char} (h : csiMatch (c :: rest) = none)
    (style : AnsiStyle) : painted (scan 0 [] style (c :: rest)) =
      (c, style) :: painted (scan 0 [] style rest) := by
  rw [scan, h]
  exact painted_scan rest 0 [c] style

theorem painted_plain {kept : List Char} (h : ∀ c ∈ kept, c ≠ ESC) (style : AnsiStyle)
    (rest : List Char) : painted (scan 0 [] style (kept ++ rest)) =
      kept.map (fun c => (c, style)) ++ painted (scan 0 [] style rest) := by
  induction kept with
  | nil => rfl
  | cons c kept ih =>
    have h_rest := ih fun d h_d => h d (List.mem_cons_of_mem _ h_d)
    rw [List.cons_append, painted_keep (csiMatch_plain (h c List.mem_cons_self) _), h_rest]
    rfl

/-- What the parser leaves of a token. -/
def Token.left : Token → List Char
  | .char c _ => [c]
  | .csi params inter final h =>
    if params.all isParam = true ∧ inter = [] ∧ final.isAlpha = true then []
    else (Token.csi params inter final h).raw
  | .osc _ _ _ => []
  | .escape c _ => if isLone c then [] else [ESC, c]

/-- The style the parser has after a token. -/
def Token.applied (style : AnsiStyle) (token : Token) : AnsiStyle :=
  token.sgr?.elim style (applySgr style)

/-- **The loop** on what the two removals leave. -/
theorem painted_tokens {tokens : List Token} (h_osc : ∀ token ∈ tokens, token.isOsc = false)
    (h_escape : ∀ token ∈ tokens, token.isEscape = false) (style : AnsiStyle) :
    painted (scan 0 [] style (render tokens)) = paint Token.left Token.applied style tokens := by
  induction tokens generalizing style with
  | nil => rfl
  | cons token tokens ih =>
    have ih := ih (fun t h_t => h_osc t (List.mem_cons_of_mem _ h_t))
      fun t h_t => h_escape t (List.mem_cons_of_mem _ h_t)
    rw [render_cons, paint]
    cases token with
    | char c h =>
      rw [← ih]
      exact painted_plain (fun d h_d => List.mem_singleton.mp h_d ▸ h) style _
    | csi params inter final h =>
      have h_match := csiMatch_csi h (render tokens)
      by_cases h_read : params.all isParam = true ∧ inter = [] ∧ final.isAlpha = true
      · obtain ⟨h_params, rfl, h_alpha⟩ := h_read
        have h_raw : (Token.csi params [] final h).raw ++ render tokens =
            ESC :: ('[' :: (params ++ [final]) ++ render tokens) := by
          simp [Token.raw]
        have h_length : params.length + 2 = ('[' :: (params ++ [final])).length := by simp
        have h_applied : Token.applied style (.csi params [] final h) =
            if final = 'm' then applySgr style (numbers params) else style := by
          by_cases h_m : final = 'm'
          · simp [Token.applied, Token.sgr?, h_params, h_m]
          · simp [Token.applied, Token.sgr?, h_m]
        have h_left : Token.left (.csi params [] final h) = [] := if_pos ⟨h_params, rfl, h_alpha⟩
        rw [if_pos ⟨h_params, rfl, h_alpha⟩, h_raw] at h_match
        rw [h_raw, scan, h_match]
        dsimp only
        rw [h_length, scan_length, flush, if_pos rfl, List.nil_append, ih, h_left, h_applied]
        rfl
      · have h_sgr : (Token.csi params inter final h).sgr? = none := by
          refine if_neg fun h_sgr => h_read ⟨h_sgr.1, h_sgr.2.1, ?_⟩
          rw [h_sgr.2.2]
          decide
        have h_none : csiMatch (ESC :: ('[' :: (params ++ inter ++ [final]) ++ render tokens)) =
            none := h_match.trans (if_neg h_read)
        have h_left : Token.left (.csi params inter final h) = ESC :: '[' ::
            (params ++ inter ++ [final]) := if_neg h_read
        rw [h_left, Token.applied, h_sgr, Option.elim_none, ← ih]
        show painted (scan 0 [] style (ESC :: ('[' :: (params ++ inter ++ [final]) ++ render tokens))) = _
        rw [painted_keep h_none, painted_plain (csi_body h)]
        rfl
    | osc payload bell h => exact absurd (h_osc _ List.mem_cons_self) (by simp [Token.isOsc])
    | escape c h =>
      have h_lone : isLone c = false := h_escape _ List.mem_cons_self
      have h_esc : ∀ d ∈ [c], d ≠ ESC := by
        intro d h_d
        rw [List.mem_singleton.mp h_d]
        rintro rfl
        exact absurd h.1 (by decide)
      have h_left : Token.left (.escape c h) = [ESC, c] := by simp [Token.left, h_lone]
      rw [h_left, ← ih]
      show painted (scan 0 [] style (ESC :: ([c] ++ render tokens))) = _
      have h_match : csiMatch (ESC :: ([c] ++ render tokens)) = none := csiMatch_other h.2.2.1 _
      rw [painted_keep h_match, painted_plain h_esc]
      rfl

/-! ### What the parser makes of tokens -/

/-- Tokens that leave nothing and change no style can be left out. -/
theorem paint_filter {left : Token → List Char} {restyle : AnsiStyle → Token → AnsiStyle}
    {p : Token → Bool} (h : ∀ token, p token = false → left token = [] ∧ ∀ style,
      restyle style token = style) (style : AnsiStyle) (tokens : List Token) :
    paint left restyle style (tokens.filter p) = paint left restyle style tokens := by
  induction tokens generalizing style with
  | nil => rfl
  | cons token tokens ih =>
    cases h_p : p token with
    | true =>
      rw [List.filter_cons_of_pos h_p, paint, paint, ih]
    | false =>
      obtain ⟨h_left, h_restyle⟩ := h token h_p
      rw [List.filter_cons_of_neg (by simp [h_p]), paint, h_left, h_restyle, ih]
      rfl

/-- **The segments** of a text written with tokens. -/
theorem painted_segments (tokens : List Token) :
    painted (ansiToSegments (render tokens)) = paint Token.left Token.applied {} tokens := by
  have h_osc : ∀ token ∈ tokens.filter fun token => !token.isOsc, token.isOsc = false := by
    intro token h_token
    simpa using (List.mem_filter.mp h_token).2
  rw [ansiToSegments, remove_osc, remove_escape h_osc, painted_tokens]
  · rw [paint_filter, paint_filter]
    · intro token h_token
      cases token with
      | osc payload bell h => exact ⟨rfl, fun style => rfl⟩
      | _ => exact absurd h_token (by simp [Token.isOsc])
    · intro token h_token
      cases token with
      | escape c h =>
        have h_lone : isLone c = true := by simpa [Token.isEscape] using h_token
        exact ⟨if_pos h_lone, fun style => rfl⟩
      | _ => exact absurd h_token (by simp [Token.isEscape])
  · intro token h_token
    exact h_osc token (List.mem_filter.mp h_token).1
  · intro token h_token
    simpa using (List.mem_filter.mp h_token).2

theorem text_painted (segments : List AnsiSegment) :
    segments.flatMap AnsiSegment.text = (painted segments).map Prod.fst := by
  rw [painted, List.map_flatMap]
  refine List.flatMap_congr fun segment _ => ?_
  rw [List.map_map]
  exact (List.map_id _).symm

theorem text_paint (left : Token → List Char) (restyle : AnsiStyle → Token → AnsiStyle)
    (style : AnsiStyle) (tokens : List Token) :
    (paint left restyle style tokens).map Prod.fst = tokens.flatMap left := by
  induction tokens generalizing style with
  | nil => rfl
  | cons token tokens ih =>
    have h_left : ((left token).map fun c => (c, style)).map Prod.fst = left token := by
      rw [List.map_map]
      exact List.map_id _
    rw [paint, List.map_append, ih, h_left, List.flatMap_cons]

/-- More is left of a token than expected, or what is expected. -/
theorem left_cases (token : Token) :
    token.left = token.text ∨ token.text.length < token.left.length := by
  cases token with
  | char c h => exact .inl rfl
  | osc payload bell h => exact .inl rfl
  | csi params inter final h =>
    by_cases h_read : params.all isParam = true ∧ inter = [] ∧ final.isAlpha = true
    · exact .inl (if_pos h_read)
    · have h_left : (Token.csi params inter final h).left = (Token.csi params inter final h).raw :=
        if_neg h_read
      rw [h_left]
      exact .inr (by simp [Token.text, Token.raw])
  | escape c h =>
    cases h_lone : isLone c with
    | true => exact .inl (if_pos h_lone)
    | false => exact .inr (by simp [Token.text, Token.left, h_lone])

/-- Nothing more is left of the text than expected exactly if that is so of each token. -/
theorem flatMap_left {tokens : List Token}
    (h : (tokens.flatMap Token.left).length ≤ (tokens.flatMap Token.text).length) :
    ∀ token ∈ tokens, token.left = token.text := by
  have h_le : ∀ tokens : List Token,
      (tokens.flatMap Token.text).length ≤ (tokens.flatMap Token.left).length := by
    intro tokens
    induction tokens with
    | nil => exact Nat.le_refl _
    | cons token tokens ih =>
      rw [List.flatMap_cons, List.flatMap_cons, List.length_append, List.length_append]
      have h_token : token.text.length ≤ token.left.length := by
        obtain h_eq | h_lt := left_cases token
        · rw [h_eq]
        · exact Nat.le_of_lt h_lt
      omega
  induction tokens with
  | nil => exact fun token h_token => absurd h_token List.not_mem_nil
  | cons token tokens ih =>
    rw [List.flatMap_cons, List.flatMap_cons, List.length_append, List.length_append] at h
    have h_rest := h_le tokens
    obtain h_eq | h_lt := left_cases token
    · rw [h_eq] at h
      intro t h_t
      obtain rfl | h_t := List.mem_cons.mp h_t
      · exact h_eq
      · exact ih (by omega) t h_t
    · omega

/-- The codes that have no effect. -/
theorem applyCode_fixed {code : ℕ} : (∀ style, applyCode style code = style) ↔ code ∉ STYLE_CODES := by
  constructor
  · intro h_fixed h_code
    -- every code changes this style
    have h_all : STYLE_CODES.all (fun code => applyCode
        { color := some "", bgColor := some "" } code ≠ { color := some "", bgColor := some "" }) := by
      decide
    have h_changes := List.all_eq_true.mp h_all code h_code
    exact absurd (h_fixed _) (of_decide_eq_true h_changes)
  · intro h_code style
    simp only [STYLE_CODES, List.mem_append, not_or, List.mem_cons, List.not_mem_nil, or_false] at h_code
    obtain ⟨⟨h_own, h_fg⟩, h_bg⟩ := h_code
    have h_lookup : ∀ palette : List (ℕ × String), code ∉ palette.map Prod.fst →
        palette.lookup code = none := by
      intro palette h_not
      refine List.lookup_eq_none_iff.mpr fun entry h_entry => ?_
      have h_ne : code ≠ entry.1 := fun h_eq => h_not (h_eq ▸ List.mem_map_of_mem h_entry)
      simpa using h_ne
    rw [applyCode, h_lookup FG h_fg, h_lookup BG h_bg]
    simp [h_own]

/-! ### The theorem -/

/-- **A text with escape sequences** is cut as expected exactly if it has no sequence but those the
parser reads as they are meant. -/
theorem ansi_sound_iff (tokens : List Token) :
    AnsiSound tokens ↔ ∀ token ∈ tokens, token.Read := by
  have h_text : (ansiToSegments (render tokens)).flatMap AnsiSegment.text =
      tokens.flatMap Token.left := by
    rw [text_painted, painted_segments, text_paint]
  constructor
  · rintro ⟨h_left, -, h_extended⟩ token h_token
    have h_eq := flatMap_left (Nat.le_of_eq (congrArg List.length (h_text.symm.trans h_left)))
      token h_token
    cases token with
    | char c h => trivial
    | osc payload bell h => trivial
    | escape c h =>
      by_contra h_lone
      have h_long : Token.left (.escape c h) = [ESC, c] := if_neg h_lone
      exact absurd (h_long.symm.trans h_eq) (List.cons_ne_nil _ _)
    | csi params inter final h =>
      have h_read : params.all isParam = true ∧ inter = [] ∧ final.isAlpha = true := by
        by_contra h_not
        have h_long : Token.left (.csi params inter final h) = (Token.csi params inter final h).raw :=
          if_neg h_not
        exact absurd (h_long.symm.trans h_eq) (List.cons_ne_nil _ _)
      refine ⟨h_read.1, h_read.2.1, h_read.2.2, fun h_m code h_code => ?_⟩
      have h_sgr : (Token.csi params inter final h).sgr? = some (numbers params) :=
        if_pos ⟨h_read.1, h_read.2.1, h_m⟩
      exact applyCode_fixed.mp (h_extended _ h_token _ h_sgr code h_code)
  · intro h_read
    have h_left : ∀ token ∈ tokens, token.left = token.text := by
      intro token h_token
      have h_token := h_read token h_token
      cases token with
      | char c h => rfl
      | osc payload bell h => rfl
      | escape c h => exact if_pos h_token
      | csi params inter final h => exact if_pos ⟨h_token.1, h_token.2.1, h_token.2.2.1⟩
    have h_extended : ∀ token ∈ tokens, ∀ params, token.sgr? = some params →
        ∀ code ∈ matched extendedLength (codesOf params), ∀ style, applyCode style code = style := by
      intro token h_token params h_sgr code h_code
      have h_token := h_read token h_token
      refine applyCode_fixed.mpr ?_
      cases token with
      | csi params' inter final h =>
        rw [Token.sgr?] at h_sgr
        split at h_sgr
        next h_kind =>
          obtain rfl := Option.some.inj h_sgr
          exact h_token.2.2.2 h_kind.2.2 code h_code
        next => exact absurd h_sgr (by simp)
      | _ => exact absurd h_sgr (by simp [Token.sgr?])
    have h_style : ∀ token ∈ tokens, ∀ style, Token.applied style token = Token.restyle style token := by
      intro token h_token style
      rw [Token.applied, Token.restyle]
      cases h_sgr : token.sgr? with
      | none => rfl
      | some params =>
        exact (foldl_removeMatches (fun code h_code style' =>
          h_extended token h_token params h_sgr code h_code style') style).symm
    have h_paint : ∀ (rest : List Token) (style : AnsiStyle), (∀ token ∈ rest, token ∈ tokens) →
        paint Token.left Token.applied style rest = paint Token.text Token.restyle style rest := by
      intro rest
      induction rest with
      | nil => exact fun style _ => rfl
      | cons token rest ih =>
        intro style h_rest
        have h_token := h_rest token List.mem_cons_self
        rw [paint, paint, h_left token h_token, h_style token h_token,
          ih _ fun t h_t => h_rest t (List.mem_cons_of_mem _ h_t)]
    constructor
    case text => exact h_text.trans (List.flatMap_congr h_left)
    case style => exact (painted_segments tokens).trans (h_paint tokens {} fun _ h => h)
    case extended => exact h_extended

/-- A cursor that is hidden shows as text, and the colour with number 1 is bold. -/
theorem sequences_misread :
    (ansiToSegments "\x1b[?25lx".toList).flatMap AnsiSegment.text = "\x1b[?25lx".toList ∧
      painted (ansiToSegments "\x1b[38;5;1mx".toList) = [('x', { bold := some true })] ∧
      ¬ ∀ tokens, AnsiSound tokens := by
  refine ⟨by decide +kernel, by decide +kernel, fun h_all => ?_⟩
  have h_bytes : CsiBytes ['?', '2', '5'] [] 'l' := by
    constructor
    case params =>
      intro c h_c
      simp only [List.mem_cons, List.not_mem_nil, or_false] at h_c
      obtain rfl | rfl | rfl := h_c <;> decide
    case inter => exact fun c h_c => absurd h_c List.not_mem_nil
    case final => decide
  have h_text : (ansiToSegments "\x1b[?25l".toList).flatMap AnsiSegment.text = [] :=
    (h_all [.csi ['?', '2', '5'] [] 'l' h_bytes]).text
  exact absurd h_text (by decide +kernel)

end ServerCentral.Web
