import ServerCentral.Framework.ShellCommands
import ServerCentral.Framework.Turns
import ServerCentral.Host.ResolvePaths

/-!
# What the agent and the shell find

The paths that either of them finds for one pattern, each once and in its own order, and the
words of the shell's loop: a pattern of the accepted shape is exactly one word.
-/

open Framework

namespace ServerCentral.Host

variable {fs : FileTree} {locale : Locale} {patterns : List Path}

/-! ### The words of the loop -/

theorem safeGlob_plain {pattern : Path} (h : safeGlob pattern) :
    pattern ≠ [] ∧ ∀ c ∈ pattern, Shell.isPlain c := by
  obtain - | ⟨first, rest⟩ := pattern
  · cases h
  · have h_first : first = '/' := by
      by_contra h_other
      rw [safeGlob] at h
      · cases h
      · rintro _ h_eq
        exact h_other (List.cons.inj h_eq).1
    subst h_first
    refine ⟨List.cons_ne_nil _ _, fun c h_c => ?_⟩
    obtain rfl | h_rest := List.mem_cons.mp h_c
    · decide
    · exact Shell.isPlain_of
        (p := fun c => c.isAlphanum || ['_', '.', '-', '/', '*', '?'].contains c) (by decide)
        (List.all_eq_true.mp h c h_rest)

/-- The shell cuts the patterns as they were given. -/
theorem loopPatterns_safe (h : ∀ pattern ∈ patterns, safeGlob pattern) :
    loopPatterns patterns = some patterns := by
  have h_read : ∀ patterns : List Path, (patterns.map fun pattern =>
      Shell.Token.word (pattern.map .plain)).mapM plainWord = some patterns := by
    intro patterns
    induction patterns with
    | nil => rfl
    | cons pattern patterns ih =>
      have h_text := Shell.text_plain pattern
      have h_word : plainWord (.word (pattern.map .plain)) = some pattern := by
        rw [plainWord, h_text, if_pos rfl]
      rw [List.map_cons, List.mapM_cons, h_word, ih]
      rfl
  have h_tokens : Shell.tokens (join ' ' patterns)
      = some (patterns.map fun pattern => Shell.Token.word (pattern.map .plain)) := by
    by_cases h_nil : patterns = []
    · rw [h_nil]
      rfl
    · have h_words : List.Forall₂
          (fun text word => Shell.scan .between text = some (.word word, []))
          patterns (patterns.map fun pattern => pattern.map Shell.Letter.plain) := by
        rw [List.forall₂_map_right_iff, List.forall₂_same]
        intro pattern h_pattern
        obtain ⟨h_some, h_plain⟩ := safeGlob_plain (h pattern h_pattern)
        exact Shell.scan_plain h_some h_plain
      obtain ⟨out, last, h_scan, h_out⟩ := Shell.scan_words h_nil h_words
      have h_end := Shell.tokens_of_scan h_scan rfl
      rw [h_out, List.map_map] at h_end
      exact h_end
  rw [loopPatterns, h_tokens, Option.bind_some, h_read]

/-! ### The agent's paths -/

/-- The agent finds a path for a pattern: the directory is the pattern's own, as it is written,
and the name matches its last segment; or the pattern is a path that leads somewhere. -/
def AgentFinds (fs : FileTree) (pattern path : Path) : Prop :=
  if isWild (dirLeaf pattern).2 then
    ∃ names, fs.readdir (dirLeaf pattern).1 = some names ∧ ∃ name ∈ names,
      segmentMatcher (dirLeaf pattern).2 name ∧ path = (dirLeaf pattern).1 ++ '/' :: name
  else path = pattern ∧ fs.stat pattern

theorem mem_sortNames {names : List Path} {name : Path} : name ∈ sortNames names ↔ name ∈ names :=
  List.mem_mergeSort

theorem mem_candidates (pattern path : Path) :
    path ∈ candidates fs pattern ↔ AgentFinds fs pattern path := by
  rw [candidates, AgentFinds]
  by_cases h_wild : isWild (dirLeaf pattern).2
  · simp only [h_wild, Bool.not_true, Bool.false_eq_true, if_false, if_true, List.mem_map,
      mem_sortNames, List.mem_filter]
    cases fs.readdir (dirLeaf pattern).1 with
    | none => simp
    | some names =>
      simp only [Option.getD_some, Option.some.injEq, exists_eq_left']
      constructor
      · rintro ⟨name, ⟨h_name, h_match⟩, rfl⟩
        exact ⟨name, h_name, h_match, rfl⟩
      · rintro ⟨name, h_name, h_match, rfl⟩
        exact ⟨name, ⟨h_name, h_match⟩, rfl⟩
  · simp only [h_wild, Bool.not_false, if_true, Bool.false_eq_true, if_false]
    split
    · next h_stat => simp [h_stat]
    · next h_stat => simp [h_stat]

/-- The names come in the order of their code units, none of them twice. -/
theorem sortNames_sorted {names : List Path} (h : names.Nodup) :
    (sortNames names).Pairwise fun a b => codeUnits a < codeUnits b := by
  have h_sorted := List.pairwise_mergeSort
    (fun a b c (h : decide (codeUnits a ≤ codeUnits b) = true)
      (h' : decide (codeUnits b ≤ codeUnits c) = true) =>
      decide_eq_true (le_trans (of_decide_eq_true h) (of_decide_eq_true h')))
    (fun a b => by simpa using le_total (codeUnits a) (codeUnits b)) names
  have h_distinct : (sortNames names).Nodup := (List.mergeSort_perm names _).nodup_iff.mpr h
  refine (h_sorted.and h_distinct).imp fun h => ?_
  exact lt_of_le_of_ne (of_decide_eq_true h.1) fun h_eq => h.2 (codeUnits_injective h_eq)

theorem codeUnits_append (a b : Path) : codeUnits (a ++ b) = codeUnits a ++ codeUnits b := by
  simp [codeUnits]

theorem candidates_sorted (pattern : Path) :
    (candidates fs pattern).Pairwise fun a b => codeUnits a < codeUnits b := by
  rw [candidates]
  by_cases h_wild : isWild (dirLeaf pattern).2
  · simp only [h_wild, Bool.not_true, Bool.false_eq_true, if_false]
    rw [List.pairwise_map]
    have h_names : (((fs.readdir (dirLeaf pattern).1).getD []).filter
        (segmentMatcher (dirLeaf pattern).2)).Nodup := by
      apply List.Nodup.filter
      cases h_dir : fs.readdir (dirLeaf pattern).1 with
      | none => exact List.nodup_nil
      | some names => exact fs.names_nodup _ names h_dir
    refine (sortNames_sorted h_names).imp fun h_lt => ?_
    rw [codeUnits_append, codeUnits_append, codeUnits_cons, codeUnits_cons]
    exact List.append_left_lt (List.append_left_lt h_lt)
  · simp only [h_wild, Bool.not_false, if_true]
    split
    · exact List.pairwise_singleton _ _
    · exact List.Pairwise.nil

/-! ### The shell's paths -/

/-- The shell finds a path for a pattern: the pattern expands to it, and it leads somewhere. -/
def ShellFinds (locale : Locale) (fs : FileTree) (pattern path : Path) : Prop :=
  path ∈ expansion locale fs pattern ∧ fs.stat path

theorem entries_plain {dir name : Path} (h : name ∈ entries locale fs dir) : '/' ∉ name := by
  rw [entries] at h
  cases h_dir : fs.readdir dir with
  | none => simp [h_dir] at h
  | some names =>
    simp only [h_dir, List.mem_append] at h
    obtain h_name | h_dots := h
    · exact (fs.names_plain dir names h_dir name h_name).1
    · split at h_dots
      · simp only [List.mem_cons, List.not_mem_nil, or_false] at h_dots
        obtain rfl | rfl := h_dots <;> decide
      · cases h_dots

theorem entries_nodup (locale : Locale) (fs : FileTree) (dir : Path) :
    (entries locale fs dir).Nodup := by
  rw [entries]
  cases h_dir : fs.readdir dir with
  | none => exact List.nodup_nil
  | some names =>
    refine List.nodup_append'.mpr ⟨fs.names_nodup dir names h_dir, ?_, ?_⟩
    · split <;> decide
    · intro name h_name h_dots
      obtain ⟨-, h_dot, h_dotdot⟩ := fs.names_plain dir names h_dir name h_name
      split at h_dots
      · simp only [List.mem_cons, List.not_mem_nil, or_false] at h_dots
        exact h_dots.elim h_dot h_dotdot
      · cases h_dots

/-- What a pattern stands for below a directory is in that directory. -/
theorem mem_expand {segments : List Path} {dir path : Path}
    (h : path ∈ expand locale fs dir segments) :
    ∃ tail, path = dir ++ tail ∧ (tail = [] ∨ tail.head? = some '/') := by
  induction segments generalizing dir with
  | nil => exact ⟨[], by simpa using List.mem_singleton.mp h, .inl rfl⟩
  | cons segment rest ih =>
    have h_below : ∃ name, path ∈ expand locale fs (dir ++ '/' :: name) rest := by
      rw [expand] at h
      split at h
      · obtain ⟨name, -, h_path⟩ := List.mem_flatMap.mp h
        exact ⟨name, h_path⟩
      · exact ⟨segment, h⟩
    obtain ⟨name, h_path⟩ := h_below
    obtain ⟨tail, h_tail, -⟩ := ih h_path
    exact ⟨'/' :: name ++ tail, by simp [h_tail], .inr rfl⟩

/-- Two paths below different names differ: a name ends where its path ends, or at a slash. -/
theorem expand_disjoint {dir name other path : Path} {rest : List Path} (h_name : '/' ∉ name)
    (h_other : '/' ∉ other) (h : path ∈ expand locale fs (dir ++ '/' :: name) rest)
    (h' : path ∈ expand locale fs (dir ++ '/' :: other) rest) : name = other := by
  have h_take {name tail : Path} (h_name : '/' ∉ name)
      (h_tail : tail = [] ∨ tail.head? = some '/') : (name ++ tail).takeWhile (· ≠ '/') = name := by
    have h_all : ∀ c ∈ name, decide (c ≠ '/') = true := by
      intro c h_c
      exact decide_eq_true fun h_eq => h_name (h_eq ▸ h_c)
    rw [List.takeWhile_append_of_pos h_all]
    cases tail with
    | nil => simp
    | cons c tail =>
      obtain h_nil | h_head := h_tail
      · cases h_nil
      · simp_all
  obtain ⟨tail, h_path, h_tail⟩ := mem_expand h
  obtain ⟨tail', h_path', h_tail'⟩ := mem_expand h'
  rw [h_path, List.append_assoc, List.append_assoc, List.append_cancel_left_eq] at h_path'
  have h_same : name ++ tail = other ++ tail' := by simpa using h_path'
  have h_cut := congrArg (List.takeWhile (· ≠ '/')) h_same
  rw [h_take h_name h_tail, h_take h_other h_tail'] at h_cut
  exact h_cut

theorem expand_nodup (segments : List Path) (dir : Path) :
    (expand locale fs dir segments).Nodup := by
  induction segments generalizing dir with
  | nil => exact List.nodup_singleton dir
  | cons segment rest ih =>
    rw [expand]
    split
    · refine List.nodup_flatMap.mpr ⟨fun name _ => ih (dir ++ '/' :: name), ?_⟩
      have h_names := (entries_nodup locale fs (if dir = [] then ['/'] else dir)).filter
        (segmentMatches locale segment)
      refine h_names.imp_of_mem fun h_a h_b h_ne => ?_
      intro path h_path h_path'
      exact h_ne (expand_disjoint (entries_plain (List.mem_of_mem_filter h_a))
        (entries_plain (List.mem_of_mem_filter h_b)) h_path h_path')
    · exact ih _

theorem expansion_sorted (pattern : Path) :
    (expansion locale fs pattern).Pairwise fun a b => locale.le a b ∧ a ≠ b := by
  rw [expansion]
  split
  · have h_sorted := List.pairwise_mergeSort locale.trans locale.total
      ((expand locale fs [] (segments pattern).tail).filter fs.lstat)
    have h_distinct : (((expand locale fs [] (segments pattern).tail).filter
        fs.lstat).mergeSort locale.le).Nodup :=
      (List.mergeSort_perm _ _).nodup_iff.mpr ((expand_nodup _ []).filter _)
    split
    · exact List.pairwise_singleton _ _
    · exact h_sorted.and h_distinct
  · exact List.pairwise_singleton _ _

end ServerCentral.Host
