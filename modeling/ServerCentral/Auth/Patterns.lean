import ServerCentral.Framework.Splitting
import ServerCentral.Oidc.AppNames

/-!
# Permission patterns

A pattern is a node, or a wildcard for everything below a prefix. `permissionMatches` compares
texts: it asks whether the wildcard without its star begins the other text. Since the prefix
that is left ends in a separator, this is the order of the paths the texts write, segment by
segment (`matches_iff_segments`), and the laws of patterns are facts about prefixes of lists.

`permissionOverlaps` matches both ways. That says that the two patterns have a node in common
(`overlaps_iff`), because two prefixes of one path are prefixes of each other, and because
there is a node below every wildcard.
-/

open Framework ServerCentral.Oidc

namespace ServerCentral.Auth

/-- Whether two patterns describe overlapping sets. -/
def permissionOverlaps (a b : String) : Bool := permissionMatches a b || permissionMatches b a

/-! ### Paths -/

/-- The path that a node writes. -/
def segments (node : String) : List (List Char) := node.toList.splitOn '.'

/-- A valid node without a wildcard. -/
def Concrete (node : String) : Prop := isValidPermission node = true ∧ '*' ∉ node.toList

/-- A wildcard's path leads to a node, and the node goes on from there. -/
def Below (held node : String) : Prop :=
  ∃ path rest, segments held = path ++ [['*']] ∧ segments node = path ++ rest ∧ rest ≠ []

theorem segments_ne_nil (node : String) : segments node ≠ [] := List.splitOn_ne_nil _ _

theorem join_segments (node : String) : join '.' (segments node) = node.toList := join_splitOn _

/-- A path is the path of its text. -/
theorem segments_ofList {path : List (List Char)} (h_some : path ≠ [])
    (h : ∀ part ∈ path, '.' ∉ part) : segments (.ofList (join '.' path)) = path := by
  rw [segments, String.toList_ofList]
  exact splitOn_join h_some h

theorem eq_star_of_segments {held : String} (h : segments held = [['*']]) : held = "*" := by
  refine String.toList_inj.mp ?_
  rw [← join_segments, h]
  rfl

theorem segments_below (pre rest : String) :
    segments (pre ++ "." ++ rest) = segments pre ++ segments rest := by
  have h_text : (pre ++ "." ++ rest).toList = pre.toList ++ '.' :: rest.toList := by simp
  rw [segments, h_text, List.splitOn_append_cons_self]
  rfl

theorem segments_wildcard (pre : String) : segments (pre ++ ".*") = segments pre ++ [['*']] := by
  have h_text : pre ++ ".*" = pre ++ "." ++ "*" := by rw [String.append_assoc]; rfl
  rw [h_text, segments_below]
  rfl

/-- What a path ahead of another writes. -/
theorem text_of_segments {node : String} {path rest : List (List Char)}
    (h : segments node = path ++ rest) (h_path : path ≠ []) (h_rest : rest ≠ []) :
    node = .ofList (join '.' path) ++ "." ++ .ofList (join '.' rest) := by
  have h_join : join '.' (path ++ rest) = join '.' path ++ '.' :: join '.' rest := by
    clear h
    induction path with
    | nil => exact absurd rfl h_path
    | cons part path ih =>
      cases path with
      | nil =>
        obtain ⟨next, rest, rfl⟩ := List.exists_cons_of_ne_nil h_rest
        simp
      | cons next path =>
        rw [List.cons_append, List.cons_append, join_cons_cons, ← List.cons_append,
          ih (List.cons_ne_nil next path), join_cons_cons, List.append_assoc, List.cons_append]
  refine String.toList_inj.mp ?_
  rw [← join_segments, h, h_join]
  simp

/-- **The matcher compares paths.** -/
theorem matches_iff_segments {held node : String} :
    permissionMatches held node = true ↔ node = held ∨ Below held node := by
  rw [permissionMatches_iff]
  constructor
  · intro h
    cases h with
    | exact => exact .inl rfl
    | all => exact .inr ⟨[], segments node, rfl, rfl, segments_ne_nil node⟩
    | below pre rest =>
      exact .inr ⟨segments pre, segments rest, segments_wildcard pre, segments_below pre rest,
        segments_ne_nil rest⟩
  · rintro (rfl | ⟨path, rest, h_held, h_node, h_rest⟩)
    · exact .exact node
    · obtain rfl | h_path := eq_or_ne path []
      · rw [eq_star_of_segments h_held]
        exact .all node
      · rw [text_of_segments h_held h_path (List.cons_ne_nil _ _),
          text_of_segments h_node h_path h_rest]
        have h_wild : .ofList (join '.' path) ++ "." ++ .ofList (join '.' [['*']])
            = .ofList (join '.' path) ++ ".*" := by
          rw [String.append_assoc]
          rfl
        rw [h_wild]
        exact .below _ _

/-! ### The laws -/

theorem matches_refl (a : String) : permissionMatches a a = true :=
  (matches_iff_segments).mpr (.inl rfl)

theorem matches_trans {a b c : String} (h : permissionMatches a b = true)
    (h' : permissionMatches b c = true) : permissionMatches a c = true := by
  rw [matches_iff_segments] at h h' ⊢
  obtain rfl | ⟨path, rest, h_a, h_b, h_rest⟩ := h
  · exact h'
  obtain rfl | ⟨path', rest', h_b', h_c, h_rest'⟩ := h'
  · exact .inr ⟨path, rest, h_a, h_b, h_rest⟩
  -- the second prefix is the first one and what follows it, up to the star
  obtain ⟨middle, last, rfl⟩ := List.eq_nil_or_concat rest |>.resolve_left h_rest
  rw [h_b', List.concat_eq_append, ← List.append_assoc] at h_b
  have h_path := (List.append_inj' h_b rfl).1
  refine .inr ⟨path, middle ++ rest', h_a, ?_, List.append_ne_nil_of_right_ne_nil _ h_rest'⟩
  rw [h_c, h_path, List.append_assoc]

theorem valid_eq (a : String) :
    isValidPermission a = (a = "*" || (segments a).all isWord ||
      ((segments a).getLast? = some ['*'] && (segments a).length ≠ 1 &&
        (segments a).dropLast.all isWord)) :=
  isValidPermission_words (join_segments a).symm (fun _ h_w => notMem_of_mem_splitOn h_w)
    (segments_ne_nil a)

/-- Words are made of letters and digits. -/
theorem isWord_char {w : List Char} (h : isWord w = true) {c : Char} (h_c : c ∈ w) :
    c.isAlphanum = true := by
  cases w with
  | nil => cases h_c
  | cons d w =>
    rw [isWord, Bool.and_eq_true, List.all_eq_true] at h
    obtain rfl | h_c := List.mem_cons.mp h_c
    · simp [Char.isAlphanum, h.1]
    · exact h.2 c h_c

/-- A path of words is a node. -/
theorem concrete_of_words {a : String} (h : ∀ w ∈ segments a, isWord w = true) : Concrete a := by
  refine ⟨by simp [valid_eq, List.all_eq_true.mpr h], fun h_star => ?_⟩
  rw [← join_segments] at h_star
  obtain h_sep | ⟨w, h_w, h_star⟩ := mem_join h_star
  · cases h_sep
  · exact absurd (isWord_char (h w h_w) h_star) (by decide)

/-- A valid text is a node, or a wildcard below some words. -/
theorem valid_cases {a : String} (h : isValidPermission a = true) :
    Concrete a ∨ ∃ path, segments a = path ++ [['*']] ∧ ∀ w ∈ path, isWord w = true := by
  simp only [valid_eq, Bool.or_eq_true, Bool.and_eq_true, decide_eq_true_eq, List.all_eq_true] at h
  obtain (rfl | h_words) | ⟨⟨h_last, -⟩, h_words⟩ := h
  · exact .inr ⟨[], rfl, fun w h_w => absurd h_w List.not_mem_nil⟩
  · exact .inl (concrete_of_words h_words)
  · obtain ⟨path, h_path⟩ := List.getLast?_eq_some_iff.mp h_last
    rw [h_path, List.dropLast_concat] at h_words
    exact .inr ⟨path, h_path, h_words⟩

/-- There is a node below every prefix. -/
theorem concrete_below {path : List (List Char)} (h : ∀ w ∈ path, isWord w = true) :
    ∃ node, Concrete node ∧ segments node = path ++ [['x']] := by
  have h_all : ∀ w ∈ path ++ [['x']], isWord w = true := by
    rw [List.forall_mem_append]
    exact ⟨h, List.forall_mem_singleton.mpr (by decide)⟩
  have h_segments : segments (.ofList (join '.' (path ++ [['x']]))) = path ++ [['x']] := by
    refine segments_ofList (by simp) fun w h_w h_dot => ?_
    have h_char : '.'.isAlphanum = true := isWord_char (h_all w h_w) h_dot
    exact absurd h_char (by decide)
  refine ⟨.ofList (join '.' (path ++ [['x']])), concrete_of_words ?_, h_segments⟩
  rw [h_segments]
  exact h_all

/-- **Patterns overlap** if they have a node in common. -/
theorem overlaps_iff {a b : String} (h_a : isValidPermission a = true)
    (h_b : isValidPermission b = true) :
    permissionOverlaps a b = true ↔
      ∃ node, Concrete node ∧ permissionMatches a node = true ∧ permissionMatches b node = true := by
  have h_common : ∀ {a b : String}, isValidPermission b = true → permissionMatches a b = true →
      ∃ node, Concrete node ∧ permissionMatches a node = true ∧
        permissionMatches b node = true := by
    intro a b h_b h_match
    obtain h_node | ⟨path, h_path, h_words⟩ := valid_cases h_b
    · exact ⟨b, h_node, h_match, matches_refl b⟩
    · obtain ⟨node, h_node, h_segments⟩ := concrete_below h_words
      have h_below : permissionMatches b node = true :=
        (matches_iff_segments).mpr (.inr ⟨path, [['x']], h_path, h_segments, List.cons_ne_nil _ _⟩)
      exact ⟨node, h_node, matches_trans h_match h_below, h_below⟩
  rw [permissionOverlaps, Bool.or_eq_true]
  constructor
  · rintro (h_match | h_match)
    · exact h_common h_b h_match
    · obtain ⟨node, h_node, h_b', h_a'⟩ := h_common h_a h_match
      exact ⟨node, h_node, h_a', h_b'⟩
  · rintro ⟨node, -, h_a', h_b'⟩
    have h_match := (matches_iff_segments).mp h_a'
    obtain rfl | ⟨path, rest, h_wild, h_node, h_rest⟩ := h_match
    · exact .inr h_b'
    obtain rfl | ⟨path', rest', h_wild', h_node', h_rest'⟩ := (matches_iff_segments).mp h_b'
    · exact .inl h_a'
    -- two prefixes of the one node
    have h_below : ∀ {a b : String} {path path' : List (List Char)}, path <+: path' →
        segments a = path ++ [['*']] → segments b = path' ++ [['*']] →
          permissionMatches a b = true := by
      rintro a b path _ ⟨more, rfl⟩ h_a h_b
      refine (matches_iff_segments).mpr (.inr ⟨path, more ++ [['*']], h_a, ?_, by simp⟩)
      rw [h_b, List.append_assoc]
    obtain h_pre | h_pre := List.prefix_or_prefix_of_prefix ⟨rest, h_node.symm⟩ ⟨rest', h_node'.symm⟩
    · exact .inl (h_below h_pre h_wild h_wild')
    · exact .inr (h_below h_pre h_wild' h_wild)

/-- Holding more never fails a check that was passed. -/
theorem hasPermission_mono {held held' : List String} (h_sub : held ⊆ held') {required : String}
    (h : hasPermission (held.map some) required = some true) :
    hasPermission (held'.map some) required = some true := by
  refine hasPermission_complete (by simp) ((hasPermission_sound h).mono fun node h_node => ?_)
  simpa using h_sub (by simpa using h_node)

/-- **Permission patterns**: the order of the matcher, what a pattern stands for, when two
of them overlap, and that a check is monotone in what is held. -/
theorem permission_patterns :
    (∀ a, isValidPermission a = true → permissionMatches a a = true) ∧
    (∀ a b c, isValidPermission a = true → isValidPermission b = true →
      isValidPermission c = true → permissionMatches a b = true →
        permissionMatches b c = true → permissionMatches a c = true) ∧
    (∀ held node, isValidPermission held = true → Concrete node →
      (permissionMatches held node = true ↔ node = held ∨ Below held node)) ∧
    (∀ a b, isValidPermission a = true → isValidPermission b = true →
      (permissionOverlaps a b = true ↔ ∃ node, Concrete node ∧
        permissionMatches a node = true ∧ permissionMatches b node = true)) ∧
    ∀ (held held' : List String) (required : String), held ⊆ held' →
      hasPermission (held.map some) required = some true →
        hasPermission (held'.map some) required = some true :=
  ⟨fun a _ => matches_refl a, fun _ _ _ _ _ _ => matches_trans,
    fun _ _ _ _ => matches_iff_segments, fun _ _ => overlaps_iff,
    fun _ _ _ h_sub => hasPermission_mono h_sub⟩

end ServerCentral.Auth
