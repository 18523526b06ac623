import Mathlib.Data.List.DropRight
import ServerCentral.Framework.Paths

/-!
# Paths relative to a stack

A bind mount inside the directory of its stack is shown relative to it, and a relative one is made
absolute again where the host is browsed. Both are done on the text of the paths:
`relativizeToStack` compares texts, and `resolveAgainstStack` follows the segments of the source
from those that are written in the directory.

Where a path leads is `resolve`. The two agree with it where the directory is written without
detours, and `stack_paths_iff` says for which pairs of paths exactly. What matters is how many
segments of the directory are taken back (`stepsBack`), and what is left of it then as it is
written and as it is meant.
-/

open Framework

namespace ServerCentral.Compose

/-! ### The source -/

/-- All trailing slashes are dropped, except from a text of one character. -/
def trimTrailingSlash (dir : List Char) : List Char :=
  if 1 < dir.length then dir.rdropWhile (· = '/') else dir

def relativizeToStack (source stackDir : List Char) : List Char :=
  let stack := trimTrailingSlash stackDir
  if !(['/'].isPrefixOf source) ∨ stack = ['/'] ∨ stack = [] then source
  else
    let path := trimTrailingSlash source
    if path = stack then ['.']
    else if (stack ++ ['/']).isPrefixOf path then '.' :: path.drop stack.length
    else source

/-- One part of the source. The empty text before the leading slash is never dropped. -/
def follow (segments : List Segment) (part : Segment) : List Segment :=
  if part = [] ∨ part = ['.'] then segments
  else if part = ['.', '.'] then if 1 < segments.length then segments.dropLast else segments
  else segments ++ [part]

/-- Whether a source is looked up in the directory of the stack. -/
def isStackRelative (source : List Char) : Bool :=
  source = ['.'] ∨ ['.', '/'].isPrefixOf source ∨ ['.', '.', '/'].isPrefixOf source

def resolveAgainstStack (source stackDir : List Char) : List Char :=
  if isStackRelative source then
    let path := join '/' ((segments source).foldl follow (segments (trimTrailingSlash stackDir)))
    if path = [] then ['/'] else path
  else source

/-! ### What is to hold -/

/-- The segments that are written in an absolute directory. -/
def written (dir : List Char) : List Segment := (segments (trimTrailingSlash dir)).tail

/-- An absolute path without detours. -/
def pathText (names : List Segment) : List Char := '/' :: join '/' names

/-- **Absolute sources**: they become relative where they lead into the directory, and lead back
to where they led. -/
structure Relativized (source stackDir : List Char) : Prop where
  inside : (relativizeToStack source stackDir).head? = some '.' ↔
    resolve stackDir ≠ [] ∧ resolve stackDir <+: resolve source
  back : resolve (resolveAgainstStack (relativizeToStack source stackDir) stackDir) = resolve source

/-- **Relative sources** lead where they lead from the directory. -/
def Resolved (source stackDir : List Char) : Prop :=
  resolveAgainstStack source stackDir
    = pathText ((segments source).foldl pushSegment (resolve stackDir))

/-- What is written of the directory begins what is written of the source. -/
def Begins (stackDir source : List Char) : Prop :=
  stackDir.any (· ≠ '/') = true ∧ written stackDir <+: written source

/-- What is written behind the directory. -/
def rest (stackDir source : List Char) : List Segment :=
  (written source).drop (written stackDir).length

/-- The source is written in the directory where it leads into it, and taking the segments back
that the source takes back is the same for the directory as it is written and as it is meant. -/
structure PlainlyInside (source stackDir : List Char) : Prop where
  inside : Begins stackDir source ↔ resolve stackDir ≠ [] ∧ resolve stackDir <+: resolve source
  back : Begins stackDir source →
    (List.dropLast^[stepsBack (rest stackDir source)] (written stackDir)).foldl pushSegment []
      = List.dropLast^[stepsBack (rest stackDir source)] (resolve stackDir)

/-- The source is one that is looked up, and behind the segments it takes back the directory is
written as it is meant, or both come out as the root. -/
structure PlainlyBelow (source stackDir : List Char) : Prop where
  relative : isStackRelative source = true
  left : List.dropLast^[stepsBack (segments source)] (written stackDir)
      = List.dropLast^[stepsBack (segments source)] (resolve stackDir) ∨
    List.dropLast^[stepsBack (segments source)] (written stackDir) = [[]] ∧
      List.dropLast^[stepsBack (segments source)] (resolve stackDir) = [] ∧ resolve source = []

/-! ### Directories -/

theorem resolve_slash (path : List Char) : resolve (path ++ ['/']) = resolve path := by
  have h_segments : segments (path ++ ['/']) = segments path ++ [[]] := segments_append path []
  rw [resolve, h_segments, List.foldl_append]
  rfl

theorem resolve_rdropWhile (path : List Char) :
    resolve (path.rdropWhile (· = '/')) = resolve path := by
  induction path using List.reverseRecOn with
  | nil => rfl
  | append_singleton path c ih =>
    rw [List.rdropWhile_concat]
    split
    case isTrue h_slash =>
      obtain rfl := of_decide_eq_true h_slash
      rw [ih, resolve_slash]
    case isFalse => rfl

/-- Trailing slashes lead nowhere. -/
theorem resolve_trim (path : List Char) : resolve (trimTrailingSlash path) = resolve path := by
  rw [trimTrailingSlash]
  split
  case isTrue => exact resolve_rdropWhile path
  case isFalse => rfl

/-- A directory that is absolute begins with an empty segment. -/
theorem segments_trim (dir : List Char) :
    segments (trimTrailingSlash ('/' :: dir)) = [] :: written ('/' :: dir) := by
  have h_start : trimTrailingSlash ('/' :: dir) <+: '/' :: dir := by
    rw [trimTrailingSlash]
    split
    case isTrue => exact List.rdropWhile_prefix _ _
    case isFalse => exact List.prefix_rfl
  rw [written]
  obtain h_nil | ⟨text, h_text, -⟩ := List.prefix_cons_iff.mp h_start
  · rw [h_nil]
    rfl
  · rw [h_text, segments_absolute]
    rfl

theorem resolve_eq_written (dir : List Char) :
    resolve ('/' :: dir) = (written ('/' :: dir)).foldl pushSegment [] := by
  rw [← resolve_trim, resolve, segments_trim, List.foldl_cons]
  rfl

/-- Only slashes are left out of account. -/
theorem any_slash_eq_false (dir : List Char) :
    ('/' :: dir).any (· ≠ '/') = false ↔
      trimTrailingSlash ('/' :: dir) = ['/'] ∨ trimTrailingSlash ('/' :: dir) = [] := by
  rw [trimTrailingSlash]
  split
  case isFalse h_short =>
    obtain rfl : dir = [] := by
      rw [List.length_cons] at h_short
      exact List.eq_nil_of_length_eq_zero (by omega)
    decide
  case isTrue =>
    have h_last : ('/' :: dir).rdropWhile (· = '/') ≠ ['/'] := by
      intro h_one
      have h_ne : ('/' :: dir).rdropWhile (· = '/') ≠ [] := by
        rw [h_one]
        exact List.cons_ne_nil _ _
      have h_not := List.rdropWhile_last_not (fun c => decide (c = '/')) ('/' :: dir) h_ne
      simp only [h_one, List.getLast_singleton, decide_true, not_true_eq_false] at h_not
    rw [or_iff_right h_last, List.rdropWhile_eq_nil_iff, List.any_eq_false]
    simp

/-! ### Relative sources -/

theorem foldl_follow (parts tail : List Segment) :
    parts.foldl follow ([] :: tail) = [] :: parts.foldl pushSegment tail := by
  induction parts generalizing tail with
  | nil => rfl
  | cons part parts ih =>
    have h_follow : follow ([] :: tail) part = [] :: pushSegment tail part := by
      rw [follow, pushSegment]
      by_cases h_skip : part = [] ∨ part = ['.']
      · rw [if_pos h_skip, if_pos h_skip]
      · rw [if_neg h_skip, if_neg h_skip]
        by_cases h_up : part = ['.', '.']
        · rw [if_pos h_up, if_pos h_up]
          cases tail with
          | nil => rfl
          | cons segment tail => rw [if_pos (by simp), List.dropLast_cons_of_ne_nil (List.cons_ne_nil _ _)]
        · rw [if_neg h_up, if_neg h_up, List.cons_append]
    rw [List.foldl_cons, h_follow, ih, List.foldl_cons]

theorem resolveAgainstStack_eq {source : List Char} (h : isStackRelative source = true)
    (dir : List Char) : resolveAgainstStack source ('/' :: dir)
      = pathText ((segments source).foldl pushSegment (written ('/' :: dir))) := by
  rw [resolveAgainstStack, if_pos h, segments_trim, foldl_follow]
  dsimp only
  rw [pathText]
  cases (segments source).foldl pushSegment (written ('/' :: dir)) with
  | nil => rfl
  | cons segment names => rw [join_cons_cons]; rfl

theorem slash_notMem_written {dir : List Char} {segment : Segment} (h : segment ∈ written dir) :
    '/' ∉ segment :=
  slash_notMem_of_mem_segments (List.mem_of_mem_tail h)

/-- An absolute path leads where its segments lead. -/
theorem resolve_pathText {parts : List Segment} (h : ∀ part ∈ parts, '/' ∉ part) :
    resolve (pathText parts) = parts.foldl pushSegment [] := by
  rw [resolve, pathText, segments_absolute, List.foldl_cons]
  by_cases h_nil : parts = []
  · subst h_nil
    rfl
  · rw [segments, splitOn_join h_nil h]
    rfl

/-! ### Absolute sources -/

section Absolute

variable {s d : List Char}

theorem segments_inj {path path' : List Char} (h : segments path = segments path') :
    path = path' := by
  have h_path : join '/' (segments path) = path := join_splitOn path
  rw [← h_path, h]
  exact join_splitOn path'

/-- The text of the source is the directory with the rest behind a slash. -/
theorem trim_begins (h : written ('/' :: d) <+: written ('/' :: s)) :
    trimTrailingSlash ('/' :: s) = trimTrailingSlash ('/' :: d) ++
      if rest ('/' :: d) ('/' :: s) = [] then [] else '/' :: join '/' (rest ('/' :: d) ('/' :: s)) := by
  have h_written : written ('/' :: s) = written ('/' :: d) ++ rest ('/' :: d) ('/' :: s) :=
    List.prefix_iff_eq_append.mp h |>.symm
  apply segments_inj
  rw [segments_trim, h_written]
  by_cases h_nil : rest ('/' :: d) ('/' :: s) = []
  · rw [if_pos h_nil, h_nil, List.append_nil, List.append_nil, segments_trim]
  · have h_slash : ∀ part ∈ rest ('/' :: d) ('/' :: s), '/' ∉ part := fun part h_part =>
      slash_notMem_written (List.mem_of_mem_drop h_part)
    rw [if_neg h_nil, segments_append, segments_trim, List.cons_append,
      show segments (join '/' (rest ('/' :: d) ('/' :: s))) = rest ('/' :: d) ('/' :: s) from
        splitOn_join h_nil h_slash]

/-- What is behind the directory, from a dot. -/
theorem relativizeToStack_begins (h : Begins ('/' :: d) ('/' :: s)) :
    relativizeToStack ('/' :: s) ('/' :: d) = join '/' (['.'] :: rest ('/' :: d) ('/' :: s)) := by
  have h_stack : ¬(trimTrailingSlash ('/' :: d) = ['/'] ∨ trimTrailingSlash ('/' :: d) = []) := by
    rw [← any_slash_eq_false, h.1]
    decide
  have h_text := trim_begins h.2
  rw [relativizeToStack]
  dsimp only
  rw [if_neg fun h_source => h_stack (h_source.resolve_left Bool.false_ne_true), h_text]
  cases h_rest : rest ('/' :: d) ('/' :: s) with
  | nil => simp
  | cons part parts =>
    rw [if_neg (List.cons_ne_nil part parts), if_neg (by simp), if_pos (by simp), List.drop_left,
      join_cons_cons, List.singleton_append]

theorem relativizeToStack_other (h : ¬ Begins ('/' :: d) ('/' :: s)) :
    relativizeToStack ('/' :: s) ('/' :: d) = '/' :: s := by
  rw [relativizeToStack]
  dsimp only
  by_cases h_stack : trimTrailingSlash ('/' :: d) = ['/'] ∨ trimTrailingSlash ('/' :: d) = []
  · rw [if_pos (.inr h_stack)]
  · have h_any : ('/' :: d).any (· ≠ '/') = true := by
      rw [← any_slash_eq_false] at h_stack
      exact Bool.not_eq_false _ ▸ h_stack
    have h_written : ¬ written ('/' :: d) <+: written ('/' :: s) := fun h_pre => h ⟨h_any, h_pre⟩
    have h_same : trimTrailingSlash ('/' :: s) ≠ trimTrailingSlash ('/' :: d) := by
      intro h_eq
      have h_segments := congrArg segments h_eq
      rw [segments_trim, segments_trim] at h_segments
      exact h_written ((List.cons.inj h_segments).2 ▸ List.prefix_rfl)
    have h_longer : ¬ (trimTrailingSlash ('/' :: d) ++ ['/']).isPrefixOf
        (trimTrailingSlash ('/' :: s)) = true := by
      intro h_pre
      obtain ⟨text, h_text⟩ := List.isPrefixOf_iff_prefix.mp h_pre
      have h_segments := congrArg segments h_text
      rw [List.append_assoc, List.singleton_append, segments_append, segments_trim, segments_trim,
        List.cons_append] at h_segments
      exact h_written ⟨segments text, (List.cons.inj h_segments).2⟩
    rw [if_neg fun h_source => h_stack (h_source.resolve_left Bool.false_ne_true), if_neg h_same,
      if_neg h_longer]

theorem isStackRelative_join (parts : List Segment) :
    isStackRelative (join '/' (['.'] :: parts)) = true := by
  cases parts with
  | nil => decide
  | cons part parts =>
    rw [join_cons_cons]
    simp [isStackRelative]

/-- The source that is looked up again leads where the rest leads from the directory as it is
written. -/
theorem resolve_back (h : Begins ('/' :: d) ('/' :: s)) :
    resolve (resolveAgainstStack (relativizeToStack ('/' :: s) ('/' :: d)) ('/' :: d))
      = ((rest ('/' :: d) ('/' :: s)).foldl pushSegment (written ('/' :: d))).foldl
          pushSegment [] := by
  have h_rest : ∀ part ∈ rest ('/' :: d) ('/' :: s), '/' ∉ part := fun part h_part =>
    slash_notMem_written (List.mem_of_mem_drop h_part)
  have h_segments : segments (join '/' (['.'] :: rest ('/' :: d) ('/' :: s)))
      = ['.'] :: rest ('/' :: d) ('/' :: s) := by
    refine splitOn_join (List.cons_ne_nil _ _) fun part h_part => ?_
    obtain rfl | h_part := List.mem_cons.mp h_part
    · decide
    · exact h_rest part h_part
  have h_skip : pushSegment (written ('/' :: d)) ['.'] = written ('/' :: d) := if_pos (.inr rfl)
  rw [relativizeToStack_begins h, resolveAgainstStack_eq (isStackRelative_join _), h_segments,
    List.foldl_cons, h_skip]
  refine resolve_pathText fun part h_part => ?_
  obtain h_old | ⟨h_new, -⟩ := mem_foldl_pushSegment h_part
  · exact slash_notMem_written h_old
  · exact h_rest part h_new

/-- **Absolute sources** are told apart and lead back exactly if they are plainly inside. -/
theorem relativized_iff :
    Relativized ('/' :: s) ('/' :: d) ↔ PlainlyInside ('/' :: s) ('/' :: d) := by
  have h_inside : (relativizeToStack ('/' :: s) ('/' :: d)).head? = some '.' ↔
      Begins ('/' :: d) ('/' :: s) := by
    by_cases h : Begins ('/' :: d) ('/' :: s)
    · rw [relativizeToStack_begins h]
      refine iff_of_true ?_ h
      cases rest ('/' :: d) ('/' :: s) with
      | nil => rfl
      | cons part parts => rw [join_cons_cons]; rfl
    · rw [relativizeToStack_other h]
      exact iff_of_false (by simp) h
  -- both ways end with what the rest pushes
  have h_back (h : Begins ('/' :: d) ('/' :: s)) :
      resolve (resolveAgainstStack (relativizeToStack ('/' :: s) ('/' :: d)) ('/' :: d))
          = resolve ('/' :: s) ↔
        (List.dropLast^[stepsBack (rest ('/' :: d) ('/' :: s))] (written ('/' :: d))).foldl
            pushSegment []
          = List.dropLast^[stepsBack (rest ('/' :: d) ('/' :: s))] (resolve ('/' :: d)) := by
    have h_written : written ('/' :: s) = written ('/' :: d) ++ rest ('/' :: d) ('/' :: s) :=
      (List.prefix_iff_eq_append.mp h.2).symm
    have h_source : resolve ('/' :: s)
        = (rest ('/' :: d) ('/' :: s)).foldl pushSegment (resolve ('/' :: d)) := by
      rw [resolve_eq_written, resolve_eq_written, h_written, List.foldl_append]
    rw [resolve_back h, h_source, foldl_pushSegment_eq _ (written ('/' :: d)),
      foldl_pushSegment_eq _ (resolve ('/' :: d)), List.foldl_append,
      foldl_pushSegment_names fun _ => isName_of_mem, List.append_left_inj]
  have h_same (h : ¬ Begins ('/' :: d) ('/' :: s)) :
      resolve (resolveAgainstStack (relativizeToStack ('/' :: s) ('/' :: d)) ('/' :: d))
        = resolve ('/' :: s) := by
    have h_absolute : ¬ isStackRelative ('/' :: s) = true := by simp [isStackRelative]
    rw [relativizeToStack_other h, resolveAgainstStack, if_neg h_absolute]
  constructor
  · intro h
    exact ⟨h_inside.symm.trans h.inside, fun h_begins => (h_back h_begins).mp h.back⟩
  · intro h
    refine ⟨h_inside.trans h.inside, ?_⟩
    by_cases h_begins : Begins ('/' :: d) ('/' :: s)
    · exact (h_back h_begins).mpr (h.back h_begins)
    · exact h_same h_begins

end Absolute

/-! ### Relative sources, resolved -/

theorem eq_singleton_of_join {parts : List Segment} (h : parts ≠ []) (h_join : join '/' parts = []) :
    parts = [[]] := by
  cases parts with
  | nil => exact absurd rfl h
  | cons part parts =>
    cases parts with
    | nil =>
      rw [join_singleton] at h_join
      rw [h_join]
    | cons next parts =>
      rw [join_cons_cons] at h_join
      cases (List.append_eq_nil_iff.mp h_join).2

/-- Two lists of segments have one text only if they are the same, or if one is a single empty
segment and the other is empty. -/
theorem pathText_eq_iff {parts names : List Segment} (h : ∀ part ∈ parts, '/' ∉ part)
    (h_names : ∀ name ∈ names, '/' ∉ name ∧ name ≠ []) :
    pathText parts = pathText names ↔ parts = names ∨ parts = [[]] ∧ names = [] := by
  constructor
  · intro h_text
    have h_join : join '/' parts = join '/' names := (List.cons.inj h_text).2
    by_cases h_parts : parts = []
    · subst h_parts
      exact .inl ((join_eq_nil fun name h_mem => (h_names name h_mem).2).mp h_join.symm).symm
    · by_cases h_root : names = []
      · subst h_root
        exact .inr ⟨eq_singleton_of_join h_parts h_join, rfl⟩
      · left
        have h_split := congrArg (List.splitOn '/') h_join
        rwa [splitOn_join h_parts h, splitOn_join h_root fun name h_mem => (h_names name h_mem).1]
          at h_split
  · rintro (rfl | ⟨rfl, rfl⟩)
    · rfl
    · rfl

/-- **Relative sources** are resolved exactly if they are plainly below. -/
theorem resolved_iff {r d : List Char} :
    Resolved ('.' :: r) ('/' :: d) ↔ PlainlyBelow ('.' :: r) ('/' :: d) := by
  by_cases h_relative : isStackRelative ('.' :: r) = true
  · have h_source : ∀ part ∈ segments ('.' :: r), '/' ∉ part := fun part =>
      slash_notMem_of_mem_segments
    have h_slash (stack : List Segment) (h_stack : ∀ part ∈ stack, '/' ∉ part) :
        ∀ part ∈ (segments ('.' :: r)).foldl pushSegment stack, '/' ∉ part := by
      intro part h_part
      obtain h_old | ⟨h_new, -⟩ := mem_foldl_pushSegment h_part
      · exact h_stack part h_old
      · exact h_source part h_new
    have h_names : ∀ name ∈ (segments ('.' :: r)).foldl pushSegment (resolve ('/' :: d)),
        '/' ∉ name ∧ name ≠ [] := by
      intro name h_name
      have h_dir : ∀ part ∈ resolve ('/' :: d), '/' ∉ part := by
        intro part h_part
        obtain h_nil | ⟨h_mem, -⟩ := mem_foldl_pushSegment h_part
        · cases h_nil
        · exact slash_notMem_of_mem_segments h_mem
      refine ⟨h_slash _ h_dir name h_name, ?_⟩
      obtain h_old | ⟨-, h_new⟩ := mem_foldl_pushSegment h_name
      · exact (isName_of_mem h_old).empty
      · exact h_new.empty
    have h_pushed : (segments ('.' :: r)).foldl pushSegment [] = resolve ('.' :: r) := rfl
    have h_single (left : List Segment) : left ++ resolve ('.' :: r) = [[]] ↔
        left = [[]] ∧ resolve ('.' :: r) = [] := by
      rw [List.append_eq_singleton_iff, or_iff_right]
      rintro ⟨-, h_empty⟩
      exact (isName_of_mem (h_empty ▸ List.mem_singleton_self [])).empty rfl
    rw [Resolved, resolveAgainstStack_eq h_relative,
      pathText_eq_iff (h_slash _ fun _ => slash_notMem_written) h_names,
      foldl_pushSegment_eq _ (written _), foldl_pushSegment_eq _ (resolve ('/' :: d)), h_pushed,
      List.append_left_inj, h_single, List.append_eq_nil_iff]
    constructor
    · rintro (h_eq | ⟨⟨h_left, -⟩, h_root, h_nil⟩)
      · exact ⟨h_relative, .inl h_eq⟩
      · exact ⟨h_relative, .inr ⟨h_left, h_root, h_nil⟩⟩
    · rintro ⟨-, h_eq | ⟨h_left, h_root, h_nil⟩⟩
      · exact .inl h_eq
      · exact .inr ⟨⟨h_left, h_nil⟩, h_root, h_nil⟩
  · refine iff_of_false (fun h => ?_) fun h => h_relative h.relative
    rw [Resolved, resolveAgainstStack, if_neg h_relative] at h
    cases h

/-! ### Plain paths -/

theorem mem_iterate_dropLast {names : List Segment} {k : ℕ} {name : Segment}
    (h : name ∈ List.dropLast^[k] names) : name ∈ names := by
  induction k generalizing names with
  | zero => exact h
  | succ k ih => exact (List.dropLast_sublist names).subset (ih h)

/-- Paths that are written as they are meant meet the condition. -/
theorem plainlyInside_of_plain {s d : List Char} (h_d : written ('/' :: d) = resolve ('/' :: d))
    (h_s : written ('/' :: s) = resolve ('/' :: s)) : PlainlyInside ('/' :: s) ('/' :: d) := by
  have h_root : ('/' :: d).any (· ≠ '/') = true ↔ resolve ('/' :: d) ≠ [] := by
    rw [← Bool.not_eq_false, any_slash_eq_false, not_iff_not]
    constructor
    · intro h
      rw [← resolve_trim]
      obtain h | h := h <;> rw [h] <;> rfl
    · intro h
      right
      have h_segments := segments_trim d
      rw [h_d, h] at h_segments
      exact segments_inj (h_segments.trans rfl)
  constructor
  · rw [Begins, h_root, h_d, h_s]
  · intro _
    rw [h_d]
    exact (foldl_pushSegment_names (fun name h_name => isName_of_mem (mem_iterate_dropLast h_name))
      []).trans (List.nil_append _)

theorem plainlyBelow_of_plain {r d : List Char} (h_d : written ('/' :: d) = resolve ('/' :: d))
    (h_r : isStackRelative r = true) : PlainlyBelow r ('/' :: d) :=
  ⟨h_r, .inl (by rw [h_d])⟩

end ServerCentral.Compose
