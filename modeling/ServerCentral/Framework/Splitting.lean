import Mathlib.Data.List.Basic
import Mathlib.Data.List.TakeWhile

/-!
# Cutting a text at its separators

`join sep` puts one separator between parts, which `splitOn` cuts apart again. `splitDouble`
cuts where two separators follow each other, from left to right; `splitFirst` and `splitLast`
cut at the first separator and at the last.
-/

namespace Framework

variable {α : Type*} [DecidableEq α] {sep : α}

def join (sep : α) (parts : List (List α)) : List α := [sep].intercalate parts

/-- Cut at every pair of separators. -/
def splitDouble (sep : α) : List α → List (List α)
  | [] => [[]]
  | [a] => [[a]]
  | a :: b :: rest =>
    if a = sep ∧ b = sep then [] :: splitDouble sep rest
    else (splitDouble sep (b :: rest)).modifyHead (a :: ·)

/-- What precedes the first separator, and what follows it. -/
def splitFirst (sep : α) (text : List α) : Option (List α × List α) :=
  if sep ∈ text then some (text.takeWhile (· ≠ sep), (text.dropWhile (· ≠ sep)).tail) else none

/-- What precedes the last separator, and what follows it. -/
def splitLast (sep : α) (text : List α) : Option (List α × List α) :=
  (splitFirst sep text.reverse).map fun (after, before) => (before.reverse, after.reverse)

/-! ### Joined parts -/

section Join

omit [DecidableEq α]

@[simp] theorem join_nil : join sep [] = [] := rfl

@[simp] theorem join_singleton (part : List α) : join sep [part] = part := by
  simp [join]

@[simp] theorem join_cons_cons (part next : List α) (parts : List (List α)) :
    join sep (part :: next :: parts) = part ++ sep :: join sep (next :: parts) := by
  simp [join, List.intercalate]

theorem join_eq_nil {parts : List (List α)} (h : ∀ part ∈ parts, part ≠ []) :
    join sep parts = [] ↔ parts = [] := by
  constructor
  · intro h_join
    cases parts with
    | nil => rfl
    | cons part rest =>
      have h_part := h part List.mem_cons_self
      cases rest with
      | nil =>
        rw [join_singleton] at h_join
        exact absurd h_join h_part
      | cons next rest =>
        rw [join_cons_cons] at h_join
        exact absurd (List.append_eq_nil_iff.mp h_join).1 h_part
  · rintro rfl
    rfl

theorem join_concat_nil {parts : List (List α)} (h : parts ≠ []) :
    join sep (parts ++ [[]]) = join sep parts ++ [sep] := by
  induction parts with
  | nil => exact absurd rfl h
  | cons part parts ih =>
    cases parts with
    | nil => simp
    | cons next parts =>
      rw [List.cons_append, List.cons_append, join_cons_cons, ← List.cons_append,
        ih (List.cons_ne_nil next parts)]
      simp

theorem mem_join {parts : List (List α)} {c : α} (h : c ∈ join sep parts) :
    c = sep ∨ ∃ part ∈ parts, c ∈ part := by
  induction parts with
  | nil => cases h
  | cons part parts ih =>
    cases parts with
    | nil => exact .inr ⟨part, List.mem_cons_self, by simpa using h⟩
    | cons next parts =>
      rw [join_cons_cons, List.mem_append, List.mem_cons] at h
      obtain h_part | rfl | h_rest := h
      · exact .inr ⟨part, List.mem_cons_self, h_part⟩
      · exact .inl rfl
      · obtain h_sep | ⟨other, h_other, h_c⟩ := ih h_rest
        · exact .inl h_sep
        · exact .inr ⟨other, List.mem_cons_of_mem _ h_other, h_c⟩

theorem part_subset_join (pre : List (List α)) (part : List α) (post : List (List α)) :
    part ⊆ join sep (pre ++ part :: post) := by
  induction pre with
  | nil =>
    cases post with
    | nil => simp
    | cons next post => simp
  | cons first pre ih =>
    obtain ⟨next, rest, h_rest⟩ := List.exists_cons_of_ne_nil
      (List.append_ne_nil_of_right_ne_nil pre (List.cons_ne_nil part post))
    rw [List.cons_append, h_rest, join_cons_cons, ← h_rest]
    exact List.subset_append_of_subset_right _ (List.subset_cons_of_subset _ ih)

theorem sep_mem_join {parts : List (List α)} (h : 2 ≤ parts.length) : sep ∈ join sep parts := by
  match parts, h with
  | part :: next :: parts, _ =>
    rw [join_cons_cons]
    exact List.mem_append_right _ List.mem_cons_self

end Join

theorem splitOn_join {parts : List (List α)} (h_some : parts ≠ [])
    (h : ∀ part ∈ parts, sep ∉ part) : (join sep parts).splitOn sep = parts :=
  List.splitOn_intercalate sep h h_some

theorem join_splitOn (text : List α) : join sep (text.splitOn sep) = text :=
  List.intercalate_splitOn sep

theorem notMem_of_mem_splitOn {text part : List α} (h : part ∈ text.splitOn sep) : sep ∉ part := by
  induction text generalizing part with
  | nil =>
    rw [List.splitOn_nil, List.mem_singleton] at h
    rw [h]
    exact List.not_mem_nil
  | cons c text ih =>
    rw [List.splitOn_cons_eq_if_modifyHead] at h
    obtain ⟨first, rest, h_split⟩ := List.exists_cons_of_ne_nil (List.splitOn_ne_nil sep text)
    rw [h_split] at h ih
    split at h
    · obtain rfl | h_mem := List.mem_cons.mp h
      · exact List.not_mem_nil
      · exact ih h_mem
    · next h_c =>
      rw [List.modifyHead_cons, List.mem_cons] at h
      obtain rfl | h_mem := h
      · rw [List.mem_cons, not_or]
        exact ⟨fun h_eq => h_c (beq_iff_eq.mpr h_eq.symm), ih List.mem_cons_self⟩
      · exact ih (List.mem_cons_of_mem _ h_mem)

/-- **A text in two pieces**: the last part of the first piece goes on in the second. -/
theorem splitOn_append (text data : List α) :
    (text ++ data).splitOn sep = (text.splitOn sep).dropLast ++
      ((text.splitOn sep).getLastD [] ++ data).splitOn sep := by
  induction text with
  | nil => rfl
  | cons c text ih =>
    obtain ⟨first, rest, h_split⟩ := List.exists_cons_of_ne_nil (List.splitOn_ne_nil sep text)
    rw [List.cons_append, List.splitOn_cons_eq_if_modifyHead, List.splitOn_cons_eq_if_modifyHead,
      ih, h_split]
    split
    · rw [List.dropLast_cons_of_ne_nil (List.cons_ne_nil first rest), List.cons_append]
      rfl
    · next h_c =>
      cases rest with
      | nil =>
        change List.modifyHead (c :: ·) ((first ++ data).splitOn sep) =
          (c :: (first ++ data)).splitOn sep
        rw [List.splitOn_cons_eq_if_modifyHead, if_neg h_c]
      | cons next rest => rfl

/-! ### Pairs of separators -/

theorem splitDouble_ne_nil (text : List α) : splitDouble sep text ≠ [] := by
  induction text using splitDouble.induct sep with
  | case1 => simp [splitDouble]
  | case2 a => simp [splitDouble]
  | case3 a b rest h ih => simp [splitDouble, h]
  | case4 a b rest h ih => simp [splitDouble, h, List.modifyHead_eq_nil_iff, ih]

/-- The pieces with pairs of separators between them. -/
theorem intercalate_splitDouble (text : List α) :
    [sep, sep].intercalate (splitDouble sep text) = text := by
  induction text using splitDouble.induct sep with
  | case1 => rfl
  | case2 a => rfl
  | case3 a b rest h ih =>
    obtain ⟨rfl, rfl⟩ := h
    have h_ne : splitDouble b rest ≠ [] := splitDouble_ne_nil rest
    obtain ⟨first, pieces, h_split⟩ := List.exists_cons_of_ne_nil h_ne
    rw [splitDouble, if_pos ⟨rfl, rfl⟩, h_split]
    rw [h_split] at ih
    simpa [List.intercalate] using ih
  | case4 a b rest h ih =>
    have h_ne : splitDouble sep (b :: rest) ≠ [] := splitDouble_ne_nil (b :: rest)
    obtain ⟨first, pieces, h_split⟩ := List.exists_cons_of_ne_nil h_ne
    rw [splitDouble, if_neg h, h_split, List.modifyHead_cons]
    rw [h_split] at ih
    cases pieces with
    | nil => simpa [List.intercalate] using ih
    | cons next pieces => simpa [List.intercalate] using ih

/-- A part in front without a separator stays with what follows. -/
theorem splitDouble_append {part : List α} (h : sep ∉ part) {text : List α} (h_text : text ≠ []) :
    splitDouble sep (part ++ text) = (splitDouble sep text).modifyHead (part ++ ·) := by
  induction part with
  | nil =>
    have h_ne : splitDouble sep text ≠ [] := splitDouble_ne_nil text
    obtain ⟨first, pieces, h_split⟩ := List.exists_cons_of_ne_nil h_ne
    rw [List.nil_append, h_split]
    rfl
  | cons a part ih =>
    rw [List.mem_cons, not_or] at h
    obtain ⟨b, rest, h_rest⟩ := List.exists_cons_of_ne_nil
      (List.append_ne_nil_of_right_ne_nil part h_text)
    have h_ih := ih h.2
    rw [List.cons_append, h_rest, splitDouble, if_neg fun h_pair => h.1 h_pair.1.symm, ← h_rest,
      h_ih, List.modifyHead_modifyHead]
    rfl

theorem splitDouble_of_notMem {part : List α} (h : sep ∉ part) : splitDouble sep part = [part] := by
  induction part with
  | nil => rfl
  | cons a part ih =>
    rw [List.mem_cons, not_or] at h
    cases part with
    | nil => rfl
    | cons b part =>
      rw [splitDouble, if_neg fun h_pair => h.1 h_pair.1.symm, ih h.2]
      rfl

/-- A part that is not empty and has no separator. -/
def Plain (sep : α) (part : List α) : Prop := part ≠ [] ∧ sep ∉ part

/-- Joined parts are one piece. -/
theorem splitDouble_join {parts : List (List α)} (h : ∀ part ∈ parts, Plain sep part) :
    splitDouble sep (join sep parts) = [join sep parts] := by
  induction parts with
  | nil => rfl
  | cons part parts ih =>
    obtain ⟨-, h_part⟩ := h part List.mem_cons_self
    cases parts with
    | nil => rw [join_singleton, splitDouble_of_notMem h_part]
    | cons next parts =>
      have h_ih := ih fun p h_p => h p (List.mem_cons_of_mem _ h_p)
      obtain ⟨h_some, h_next⟩ := h next (List.mem_cons_of_mem _ List.mem_cons_self)
      obtain ⟨c, rest, h_text, h_c⟩ : ∃ c rest, join sep (next :: parts) = c :: rest ∧ c ≠ sep := by
        obtain ⟨c, next, rfl⟩ := List.exists_cons_of_ne_nil h_some
        have h_c : c ≠ sep := fun h_eq => h_next (h_eq ▸ List.mem_cons_self)
        cases parts with
        | nil => exact ⟨c, next, by simp, h_c⟩
        | cons other parts => exact ⟨c, next ++ sep :: join sep (other :: parts), by simp, h_c⟩
      rw [join_cons_cons, splitDouble_append h_part (List.cons_ne_nil _ _), h_text, splitDouble,
        if_neg fun h_pair => h_c h_pair.2, ← h_text, h_ih]
      rfl

/-- **A pair of separators behind joined parts** is where the first piece ends. -/
theorem splitDouble_join_append {parts : List (List α)} (h : ∀ part ∈ parts, Plain sep part)
    (text : List α) : splitDouble sep (join sep parts ++ sep :: sep :: text) =
      join sep parts :: splitDouble sep text := by
  induction parts with
  | nil => rw [join_nil, List.nil_append, splitDouble, if_pos ⟨rfl, rfl⟩]
  | cons part parts ih =>
    obtain ⟨-, h_part⟩ := h part List.mem_cons_self
    cases parts with
    | nil =>
      rw [join_singleton, splitDouble_append h_part (List.cons_ne_nil _ _), splitDouble,
        if_pos ⟨rfl, rfl⟩, List.modifyHead_cons, List.append_nil]
    | cons next parts =>
      have h_ih := ih fun p h_p => h p (List.mem_cons_of_mem _ h_p)
      obtain ⟨h_some, h_next⟩ := h next (List.mem_cons_of_mem _ List.mem_cons_self)
      obtain ⟨c, rest, h_text, h_c⟩ : ∃ c rest,
          join sep (next :: parts) ++ sep :: sep :: text = c :: rest ∧ c ≠ sep := by
        obtain ⟨c, next, rfl⟩ := List.exists_cons_of_ne_nil h_some
        have h_c : c ≠ sep := fun h_eq => h_next (h_eq ▸ List.mem_cons_self)
        cases parts with
        | nil => exact ⟨c, next ++ sep :: sep :: text, by simp, h_c⟩
        | cons other parts =>
          exact ⟨c, next ++ sep :: join sep (other :: parts) ++ sep :: sep :: text, by simp, h_c⟩
      rw [join_cons_cons, List.append_assoc, List.cons_append,
        splitDouble_append h_part (List.cons_ne_nil _ _), h_text, splitDouble,
        if_neg fun h_pair => h_c h_pair.2, ← h_text, h_ih]
      rfl

/-! ### One separator -/

theorem splitFirst_eq_some {text before after : List α} :
    splitFirst sep text = some (before, after) ↔ text = before ++ sep :: after ∧ sep ∉ before := by
  constructor
  · intro h
    rw [splitFirst] at h
    split at h
    · next h_mem =>
      obtain ⟨h_before, h_after⟩ := Prod.mk.inj (Option.some.inj h)
      have h_drop : text.dropWhile (· ≠ sep) ≠ [] := by
        intro h_nil
        exact absurd (List.dropWhile_eq_nil_iff.mp h_nil sep h_mem) (by simp)
      obtain ⟨c, rest, h_cons⟩ := List.exists_cons_of_ne_nil h_drop
      obtain rfl : c = sep := by
        have h_head := List.head_dropWhile_not _ h_drop
        simp only [h_cons, List.head_cons] at h_head
        simpa using h_head
      constructor
      · rw [← h_before, ← h_after, h_cons, List.tail_cons, ← h_cons,
          List.takeWhile_append_dropWhile]
      · rw [← h_before]
        intro h_sep
        exact absurd (List.mem_takeWhile_imp h_sep) (by simp)
    · cases h
  · rintro ⟨rfl, h_before⟩
    have h_all : ∀ c ∈ before, decide (c ≠ sep) = true := fun c h_c =>
      decide_eq_true fun h_eq => h_before (h_eq ▸ h_c)
    rw [splitFirst, if_pos (List.mem_append_right _ List.mem_cons_self),
      List.takeWhile_append_of_pos h_all, List.dropWhile_append_of_pos h_all]
    simp

theorem splitFirst_eq_none {text : List α} : splitFirst sep text = none ↔ sep ∉ text := by
  rw [splitFirst]
  split <;> simp_all

theorem splitLast_eq_some {text before after : List α} :
    splitLast sep text = some (before, after) ↔ text = before ++ sep :: after ∧ sep ∉ after := by
  rw [splitLast, Option.map_eq_some_iff]
  constructor
  · rintro ⟨⟨first, rest⟩, h_split, h_eq⟩
    obtain ⟨rfl, rfl⟩ := Prod.mk.inj h_eq
    obtain ⟨h_text, h_first⟩ := (splitFirst_eq_some).mp h_split
    refine ⟨?_, fun h_mem => h_first (List.mem_reverse.mp h_mem)⟩
    rw [← List.reverse_reverse text, h_text]
    simp
  · rintro ⟨rfl, h_after⟩
    refine ⟨(after.reverse, before.reverse), (splitFirst_eq_some).mpr ⟨by simp, ?_⟩, by simp⟩
    exact fun h_mem => h_after (List.mem_reverse.mp h_mem)

theorem splitLast_eq_none {text : List α} : splitLast sep text = none ↔ sep ∉ text := by
  rw [splitLast, Option.map_eq_none_iff, splitFirst_eq_none, List.mem_reverse]

end Framework
