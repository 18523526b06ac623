import ServerCentral.Host.ResolveOrder

/-!
# The two ways of resolving paths

`Agrees` says when the agent's own implementation and the shell's loop return the same list, in
terms of what each finds for one pattern (`AgentFinds`, `ShellFinds`): the same paths, none of
them under two patterns of the shell, in the same turns, and with texts that survive the
lines of the loop's output. `same_paths` is the theorem. The condition is enough for every
list of patterns, and where no path that the shell finds holds a tab or a line end it is
necessary as well.
-/

open Framework

namespace ServerCentral.Host

open ClientIp (trim)

variable {fs : FileTree} {locale : Locale} {patterns : List Path}

/-- The real path that is reported for a path. -/
def realPathOf (fs : FileTree) (path : Path) : Path := (fs.realpath path).getD path

/-- A path keeps to its own field of a line. -/
def OneField (path : Path) : Prop := '\t' ∉ path ∧ '\n' ∉ path

/-- **When the two agree.** -/
structure Agrees (locale : Locale) (fs : FileTree) (patterns : List Path) : Prop where
  /-- What the agent matches leads somewhere, and the shell matches it too: no hidden name
  that only the agent matches, no link that leads nowhere. -/
  found : ∀ pattern ∈ patterns, ∀ path, AgentFinds fs pattern path →
    ∃ other ∈ patterns, ShellFinds locale fs other path
  /-- What the shell matches the agent matches too: no directory that only the shell finds. -/
  known : ∀ pattern ∈ patterns, ∀ path, ShellFinds locale fs pattern path →
    ∃ other ∈ patterns, AgentFinds fs other path
  /-- The shell finds no path for two of the patterns. -/
  once : patterns.Pairwise fun pattern other => ∀ path, ShellFinds locale fs pattern path →
    ¬ ShellFinds locale fs other path
  /-- The collating order is that of the code units on these paths. -/
  turns : ∀ a b, InTurn (ShellFinds locale fs) (fun a b => locale.le a b ∧ a ≠ b) a b patterns →
    (∃ pattern ∈ patterns, ShellFinds locale fs pattern b) →
    InTurn (AgentFinds fs) (fun a b => codeUnits a < codeUnits b) a b patterns
  /-- The paths and their real paths survive the lines of the output. -/
  texts : ∀ pattern ∈ patterns, ∀ path, AgentFinds fs pattern path →
    OneField path ∧ '\n' ∉ realPathOf fs path ∧ trim (realPathOf fs path) = realPathOf fs path

/-! ### What the agent returns -/

def resolved (fs : FileTree) (path : Path) : ResolvedPath := ⟨path, realPathOf fs path⟩

/-- The agent's paths: of all candidates, in their order, the first occurrences. -/
def agentPaths (fs : FileTree) (patterns : List Path) : List Path :=
  appendDistinct [] (patterns.flatMap (candidates fs))

theorem add_resolved (paths : List Path) (path : Path) :
    add fs (paths.map (resolved fs)) path
      = (if path ∈ paths then paths else paths ++ [path]).map (resolved fs) := by
  have h_seen : (paths.map (resolved fs)).any (·.path = path) = decide (path ∈ paths) := by
    rw [Bool.eq_iff_iff, decide_eq_true_iff, List.any_map, List.any_eq_true]
    constructor
    · rintro ⟨other, h_other, h_eq⟩
      rw [← of_decide_eq_true h_eq]
      exact h_other
    · intro h_mem
      exact ⟨path, h_mem, decide_eq_true rfl⟩
  rw [add, h_seen]
  by_cases h : path ∈ paths
  · simp [h]
  · rw [decide_eq_false h, if_neg Bool.false_ne_true, if_neg h, List.map_append]
    rfl

theorem runResolvePaths_eq (fs : FileTree) (patterns : List Path) :
    runResolvePaths fs patterns = (agentPaths fs patterns).map (resolved fs) := by
  have h_block (paths block : List Path) :
      block.foldl (add fs) (paths.map (resolved fs))
        = (appendDistinct paths block).map (resolved fs) := by
    induction block generalizing paths with
    | nil => rfl
    | cons path block ih =>
      rw [List.foldl_cons, add_resolved, ih, appendDistinct_cons]
      split <;> rfl
  have h_blocks (paths : List Path) :
      patterns.foldl (fun out pattern => (candidates fs pattern).foldl (add fs) out)
          (paths.map (resolved fs))
        = (appendDistinct paths (patterns.flatMap (candidates fs))).map (resolved fs) := by
    induction patterns generalizing paths with
    | nil => rfl
    | cons pattern patterns ih =>
      rw [List.foldl_cons, h_block, ih, List.flatMap_cons, appendDistinct, appendDistinct,
        appendDistinct, List.foldl_append]
  exact h_blocks []

theorem mem_agentPaths (path : Path) :
    path ∈ agentPaths fs patterns ↔ ∃ pattern ∈ patterns, AgentFinds fs pattern path := by
  rw [agentPaths, mem_appendDistinct]
  simp [mem_candidates]

theorem agentPaths_nodup : (agentPaths fs patterns).Nodup :=
  nodup_appendDistinct List.nodup_nil

theorem agentPaths_turns : (agentPaths fs patterns).Pairwise fun a b =>
    InTurn (AgentFinds fs) (fun a b => codeUnits a < codeUnits b) a b patterns :=
  appendDistinct_inTurn mem_candidates patterns fun pattern _ => candidates_sorted pattern

/-! ### What the loop prints -/

/-- The shell's paths, in the order it prints them. -/
def kept (locale : Locale) (fs : FileTree) (pattern : Path) : List Path :=
  (expansion locale fs pattern).filter fs.stat

def shellPaths (locale : Locale) (fs : FileTree) (patterns : List Path) : List Path :=
  patterns.flatMap (kept locale fs)

theorem mem_kept (pattern path : Path) :
    path ∈ kept locale fs pattern ↔ ShellFinds locale fs pattern path := by
  rw [kept, List.mem_filter, ShellFinds]

theorem mem_shellPaths (path : Path) :
    path ∈ shellPaths locale fs patterns ↔ ∃ pattern ∈ patterns, ShellFinds locale fs pattern path := by
  simp [shellPaths, mem_kept]

theorem kept_sorted (pattern : Path) :
    (kept locale fs pattern).Pairwise fun a b => locale.le a b ∧ a ≠ b :=
  (expansion_sorted pattern).filter _

theorem shellPaths_nodup_iff : (shellPaths locale fs patterns).Nodup ↔
    patterns.Pairwise fun pattern other => ∀ path, ShellFinds locale fs pattern path →
      ¬ ShellFinds locale fs other path := by
  rw [shellPaths, List.nodup_flatMap]
  have h_blocks : ∀ pattern ∈ patterns, (kept locale fs pattern).Nodup :=
    fun pattern _ => (kept_sorted pattern).imp And.right
  have h_iff (pattern other : Path) :
      List.Disjoint (kept locale fs pattern) (kept locale fs other) ↔
        ∀ path, ShellFinds locale fs pattern path → ¬ ShellFinds locale fs other path := by
    simp only [List.Disjoint, mem_kept]
  constructor
  · rintro ⟨-, h_disjoint⟩
    exact h_disjoint.imp fun h => (h_iff _ _).mp h
  · intro h_once
    exact ⟨h_blocks, h_once.imp fun h => (h_iff _ _).mpr h⟩

theorem loopOutput_eq (h : ∀ pattern ∈ patterns, safeGlob pattern) :
    loopOutput locale fs patterns
      = (shellPaths locale fs patterns).flatMap fun path =>
          path ++ '\t' :: shownPath fs path ++ ['\n'] := by
  rw [loopOutput, loopPatterns_safe h, Option.getD_some, List.filter_flatMap]
  rfl

/-! ### Reading the output back -/

theorem mem_of_mem_trim {text : List Char} {c : Char} (h : c ∈ trim text) : c ∈ text := by
  rw [trim, List.mem_reverse] at h
  have h_inner := List.mem_reverse.mp ((List.dropWhile_suffix _).subset h)
  exact (List.dropWhile_suffix _).subset h_inner

theorem parseOutput_append (first rest : List Char) :
    parseOutput (first ++ '\n' :: rest) = parseOutput first ++ parseOutput rest := by
  rw [parseOutput, List.splitOn_append_cons_self, List.filterMap_append]
  rfl

/-- A row of two texts, neither of which ends the line. -/
theorem parseOutput_row {path text : List Char} (h_path : OneField path) (h_text : '\n' ∉ text) :
    parseOutput (path ++ '\t' :: text) = [⟨path, trim text⟩] := by
  have h_line : '\n' ∉ path ++ '\t' :: text := by simp [h_path.2, h_text]
  have h_cut : splitFirst '\t' (path ++ '\t' :: text) = some (path, text) :=
    splitFirst_eq_some.mpr ⟨rfl, h_path.1⟩
  rw [parseOutput, List.splitOn_eq_singleton h_line]
  simp [parseLine, h_cut]

/-- The first line of a row tells the path, whatever follows it. -/
theorem first_line {path : List Char} (h_path : OneField path) (text : List Char) :
    ∃ line, '\n' ∉ line ∧ (text = line ∨ '\n' ∈ text) ∧
      ⟨path, trim line⟩ ∈ parseOutput (path ++ '\t' :: text) := by
  by_cases h_text : '\n' ∈ text
  · obtain ⟨line, rest, rfl, h_line⟩ := List.eq_append_cons_of_mem h_text
    refine ⟨line, h_line, .inr h_text, ?_⟩
    have h_rows : parseOutput (path ++ '\t' :: (line ++ '\n' :: rest))
        = parseOutput (path ++ '\t' :: line) ++ parseOutput rest := by
      rw [← parseOutput_append]
      simp
    rw [h_rows, parseOutput_row h_path h_line]
    exact List.mem_cons_self
  · refine ⟨text, h_text, .inl rfl, ?_⟩
    rw [parseOutput_row h_path h_text]
    exact List.mem_cons_self

theorem parseOutput_rows (paths : List Path) (text : Path → List Char) :
    parseOutput (paths.flatMap fun path => path ++ '\t' :: text path ++ ['\n'])
      = paths.flatMap fun path => parseOutput (path ++ '\t' :: text path) := by
  induction paths with
  | nil => rfl
  | cons path paths ih =>
    rw [List.flatMap_cons, List.flatMap_cons, ← ih, ← parseOutput_append]
    simp

theorem mem_of_mem_shownPath {path : Path} {c : Char} (h : c ∈ shownPath fs path) :
    c ∈ realPathOf fs path := by
  rw [shownPath, List.mem_reverse] at h
  exact List.mem_reverse.mp ((List.dropWhile_suffix _).subset h)

theorem shownPath_of_plain {path : Path} (h : '\n' ∉ realPathOf fs path) :
    shownPath fs path = realPathOf fs path := by
  rw [shownPath, ← realPathOf]
  have h_all : ∀ c ∈ (realPathOf fs path).reverse, ¬ decide (c = '\n') = true := by
    intro c h_c h_eq
    rw [of_decide_eq_true h_eq] at h_c
    exact h (List.mem_reverse.mp h_c)
  cases h_real : (realPathOf fs path).reverse with
  | nil =>
    rw [List.reverse_eq_nil_iff] at h_real
    simp [h_real]
  | cons c rest =>
    rw [h_real] at h_all
    have h_keep : (c :: rest).dropWhile (fun d => decide (d = '\n')) = c :: rest := by
      rw [List.dropWhile_cons, if_neg (h_all c List.mem_cons_self)]
    rw [h_keep, ← h_real, List.reverse_reverse]

/-- Where the texts keep to their fields, the output reads back as what was found. -/
theorem parse_shellPaths (h_safe : ∀ pattern ∈ patterns, safeGlob pattern)
    (h : ∀ path ∈ shellPaths locale fs patterns, OneField path ∧
      '\n' ∉ realPathOf fs path ∧ trim (realPathOf fs path) = realPathOf fs path) :
    parseOutput (loopOutput locale fs patterns)
      = (shellPaths locale fs patterns).map (resolved fs) := by
  rw [loopOutput_eq h_safe, parseOutput_rows, List.map_eq_flatMap]
  have h_row : ∀ path ∈ shellPaths locale fs patterns,
      parseOutput (path ++ '\t' :: shownPath fs path) = [resolved fs path] := by
    intro path h_path
    obtain ⟨h_field, h_line, h_trim⟩ := h path h_path
    rw [shownPath_of_plain h_line, parseOutput_row h_field h_line, h_trim]
    rfl
  exact List.flatMap_congr h_row

/-- A path whose real path comes back as it is: its text had no line end to begin with. -/
theorem realPath_kept {path : Path} (h_field : OneField path) {records : List ResolvedPath}
    (h_records : ∀ record ∈ records, ∃ other, record = resolved fs other)
    (h : ∀ record ∈ parseOutput (path ++ '\t' :: shownPath fs path), record ∈ records) :
    resolved fs path ∈ records ∧ '\n' ∉ realPathOf fs path ∧
      trim (realPathOf fs path) = realPathOf fs path := by
  obtain ⟨line, h_line, h_text, h_first⟩ := first_line h_field (shownPath fs path)
  have h_mem := h _ h_first
  obtain ⟨other, h_other⟩ := h_records _ h_mem
  obtain ⟨rfl, h_real⟩ : path = other ∧ trim line = realPathOf fs other := by
    simpa [resolved] using h_other
  have h_plain : '\n' ∉ realPathOf fs path := by
    rw [← h_real]
    exact fun h_c => h_line (mem_of_mem_trim h_c)
  have h_shown : shownPath fs path = line := by
    obtain h_same | h_broken := h_text
    · exact h_same
    · exact absurd (mem_of_mem_shownPath h_broken) h_plain
  rw [shownPath_of_plain h_plain] at h_shown
  rw [h_other] at h_mem
  refine ⟨h_mem, h_plain, ?_⟩
  rw [h_shown]
  rw [h_shown] at h_real
  exact h_real

/-! ### The theorem -/

theorem resolvePaths_safe (h : ∀ pattern ∈ patterns, safeGlob pattern) (hasResolvePaths : Bool) :
    resolvePaths hasResolvePaths locale fs patterns
      = .ok (if hasResolvePaths then (agentPaths fs patterns).map (resolved fs)
        else parseOutput (loopOutput locale fs patterns)) := by
  have h_find : patterns.find? (!safeGlob ·) = none := by
    rw [List.find?_eq_none]
    intro pattern h_pattern
    simp [h pattern h_pattern]
  rw [resolvePaths, h_find]
  cases hasResolvePaths with
  | false => rfl
  | true => rw [if_pos rfl, if_pos rfl, runResolvePaths_eq]

/-- The turns of the two lists, compared. -/
theorem paths_eq_iff (h_once : (shellPaths locale fs patterns).Nodup) :
    shellPaths locale fs patterns = agentPaths fs patterns ↔
      (∀ path, path ∈ shellPaths locale fs patterns ↔ path ∈ agentPaths fs patterns) ∧
      ∀ a ∈ shellPaths locale fs patterns, ∀ b ∈ shellPaths locale fs patterns,
        InTurn (ShellFinds locale fs) (fun a b => locale.le a b ∧ a ≠ b) a b patterns →
        InTurn (AgentFinds fs) (fun a b => codeUnits a < codeUnits b) a b patterns := by
  have h_shell : (shellPaths locale fs patterns).Pairwise fun a b =>
      InTurn (ShellFinds locale fs) (fun a b => locale.le a b ∧ a ≠ b) a b patterns :=
    flatMap_inTurn mem_kept patterns (fun pattern _ => kept_sorted pattern) h_once
  have h_collate (a b : Path) (h : locale.le a b ∧ a ≠ b) : ¬ (locale.le b a ∧ b ≠ a) :=
    fun h' => h.2 (locale.antisymm a b h.1 h'.1)
  have h_units (a b : Path) (h : codeUnits a < codeUnits b) : ¬ codeUnits b < codeUnits a :=
    lt_asymm h
  exact eq_iff_turns h_shell agentPaths_turns h_once agentPaths_nodup
    (fun _ _ => inTurn_asymm h_collate) fun _ _ => inTurn_asymm h_units

theorem Agrees.paths_eq (h : Agrees locale fs patterns) :
    shellPaths locale fs patterns = agentPaths fs patterns := by
  rw [paths_eq_iff (shellPaths_nodup_iff.mpr h.once)]
  constructor
  · intro path
    rw [mem_shellPaths, mem_agentPaths]
    constructor
    · rintro ⟨pattern, h_pattern, h_finds⟩
      exact h.known pattern h_pattern path h_finds
    · rintro ⟨pattern, h_pattern, h_finds⟩
      exact h.found pattern h_pattern path h_finds
  · intro a _ b h_b h_turn
    exact h.turns a b h_turn ((mem_shellPaths b).mp h_b)

theorem Agrees.same (h_safe : ∀ pattern ∈ patterns, safeGlob pattern)
    (h : Agrees locale fs patterns) :
    resolvePaths false locale fs patterns = resolvePaths true locale fs patterns := by
  have h_paths := h.paths_eq
  have h_texts : ∀ path ∈ shellPaths locale fs patterns, OneField path ∧
      '\n' ∉ realPathOf fs path ∧ trim (realPathOf fs path) = realPathOf fs path := by
    intro path h_path
    rw [h_paths, mem_agentPaths] at h_path
    obtain ⟨pattern, h_pattern, h_finds⟩ := h_path
    exact h.texts pattern h_pattern path h_finds
  rw [resolvePaths_safe h_safe, resolvePaths_safe h_safe, if_neg Bool.false_ne_true, if_pos rfl,
    parse_shellPaths h_safe h_texts, h_paths]

theorem agrees_of_same (h_safe : ∀ pattern ∈ patterns, safeGlob pattern)
    (h_fields : ∀ pattern ∈ patterns, ∀ path, ShellFinds locale fs pattern path → OneField path)
    (h : resolvePaths false locale fs patterns = resolvePaths true locale fs patterns) :
    Agrees locale fs patterns := by
  rw [resolvePaths_safe h_safe, resolvePaths_safe h_safe, if_neg Bool.false_ne_true,
    if_pos rfl, Except.ok.injEq] at h
  have h_records : ∀ record ∈ (agentPaths fs patterns).map (resolved fs),
      ∃ other, record = resolved fs other := by
    intro record h_record
    obtain ⟨path, -, rfl⟩ := List.mem_map.mp h_record
    exact ⟨path, rfl⟩
  have h_texts : ∀ path ∈ shellPaths locale fs patterns, OneField path ∧
      '\n' ∉ realPathOf fs path ∧ trim (realPathOf fs path) = realPathOf fs path := by
    intro path h_path
    obtain ⟨pattern, h_pattern, h_finds⟩ := (mem_shellPaths path).mp h_path
    have h_field := h_fields pattern h_pattern path h_finds
    refine ⟨h_field, (realPath_kept h_field h_records fun record h_record => ?_).2⟩
    rw [← h, loopOutput_eq h_safe, parseOutput_rows]
    exact List.mem_flatMap.mpr ⟨path, h_path, h_record⟩
  rw [parse_shellPaths h_safe h_texts] at h
  have h_paths : shellPaths locale fs patterns = agentPaths fs patterns := by
    refine List.map_injective_iff.mpr (fun a b h_ab => ?_) h
    exact congrArg ResolvedPath.path h_ab
  have h_nodup : (shellPaths locale fs patterns).Nodup := h_paths ▸ agentPaths_nodup
  obtain ⟨h_mem, h_turns⟩ := (paths_eq_iff h_nodup).mp h_paths
  refine ⟨?_, ?_, (shellPaths_nodup_iff).mp h_nodup, ?_, ?_⟩
  · intro pattern h_pattern path h_finds
    rw [← mem_shellPaths, h_mem, mem_agentPaths]
    exact ⟨pattern, h_pattern, h_finds⟩
  · intro pattern h_pattern path h_finds
    rw [← mem_agentPaths, ← h_mem, mem_shellPaths]
    exact ⟨pattern, h_pattern, h_finds⟩
  · intro a b h_turn h_b
    exact h_turns a ((mem_shellPaths a).mpr (inTurn_found h_turn)) b ((mem_shellPaths b).mpr h_b)
      h_turn
  · intro pattern h_pattern path h_finds
    apply h_texts
    rw [h_mem, mem_agentPaths]
    exact ⟨pattern, h_pattern, h_finds⟩

/-- The locale whose order is that of the code units. -/
def unitsLocale : Locale where
  letters := codeUnits
  dots := true
  le := fun a b => decide (codeUnits a ≤ codeUnits b)
  total := fun a b => by simpa using le_total (codeUnits a) (codeUnits b)
  trans := fun a b c h h' =>
    decide_eq_true (le_trans (of_decide_eq_true h) (of_decide_eq_true h'))
  antisymm := fun a b h h' =>
    codeUnits_injective (le_antisymm (of_decide_eq_true h) (of_decide_eq_true h'))

/-- `/dev` with one entry, a link to nothing. -/
def danglingTree : FileTree where
  readdir := fun dir => if dir = "/dev".toList then some ["tty".toList] else none
  stat := fun _ => false
  lstat := fun path => path = "/dev/tty".toList
  realpath := fun _ => none
  names_nodup := by
    intro dir names h
    split at h
    · cases h
      exact List.nodup_singleton _
    · cases h
  names_plain := by
    intro dir names h
    split at h
    · cases h
      decide
    · cases h

end ServerCentral.Host
