import Mathlib.Data.List.Induction
import Mathlib.Data.List.Nodup
import Mathlib.Data.List.Pairwise
import ServerCentral.Framework.FirstMatch

/-!
# Lists that are gathered block by block

Each key gives a block of elements, and the blocks follow each other in the order of their
keys. `InTurn` says of two elements which of them comes first: the first key that gives either
decides, and within a block the order `lt` does.

A list without repetitions is gathered in turn (`flatMap_inTurn`), and so is one that keeps the
first occurrence of each element (`appendDistinct_inTurn`). Two lists in turn with the same
elements are equal exactly where their turns agree (`eq_iff_turns`).
-/

namespace Framework

variable {α β : Type*}

/-- The element `a` has its turn before `b`. -/
def InTurn (finds : β → α → Prop) (lt : α → α → Prop) (a b : α) : List β → Prop
  | [] => False
  | key :: rest =>
    finds key a ∧ (finds key b → lt a b) ∨
      ¬ finds key a ∧ ¬ finds key b ∧ InTurn finds lt a b rest

variable {finds : β → α → Prop} {lt : α → α → Prop}

theorem inTurn_asymm (h_lt : ∀ a b, lt a b → ¬ lt b a) {keys : List β} {a b : α}
    (h : InTurn finds lt a b keys) : ¬ InTurn finds lt b a keys := by
  induction keys with
  | nil => exact h.elim
  | cons key rest ih =>
    obtain ⟨h_a, h_before⟩ | ⟨h_a, h_b, h_rest⟩ := h
    · rintro (⟨h_b, h_after⟩ | ⟨h_b, h_a', -⟩)
      · exact h_lt a b (h_before h_b) (h_after h_a)
      · exact h_a' h_a
    · rintro (⟨h_b', -⟩ | ⟨-, -, h_rest'⟩)
      · exact h_b h_b'
      · exact ih h_rest h_rest'

theorem inTurn_found {keys : List β} {a b : α} (h : InTurn finds lt a b keys) :
    ∃ key ∈ keys, finds key a := by
  induction keys with
  | nil => exact h.elim
  | cons key rest ih =>
    obtain ⟨h_a, -⟩ | ⟨-, -, h_rest⟩ := h
    · exact ⟨key, List.mem_cons_self, h_a⟩
    · obtain ⟨other, h_other, h_a⟩ := ih h_rest
      exact ⟨other, List.mem_cons_of_mem _ h_other, h_a⟩

theorem inTurn_append {pre rest : List β} {a b : α} :
    InTurn finds lt a b (pre ++ rest) ↔
      InTurn finds lt a b pre ∨
        (∀ key ∈ pre, ¬ finds key a ∧ ¬ finds key b) ∧ InTurn finds lt a b rest := by
  induction pre with
  | nil => simp [InTurn]
  | cons key pre ih =>
    rw [List.cons_append, InTurn, InTurn, ih]
    simp only [List.forall_mem_cons]
    tauto

/-- What some key gives has its turn before what none gives. -/
theorem inTurn_of_found {keys : List β} {a b : α} (h_a : ∃ key ∈ keys, finds key a)
    (h_b : ∀ key ∈ keys, ¬ finds key b) : InTurn finds lt a b keys := by
  induction keys with
  | nil =>
    obtain ⟨key, h_key, -⟩ := h_a
    cases h_key
  | cons key rest ih =>
    have h_head := h_b key List.mem_cons_self
    by_cases h_key : finds key a
    · exact .inl ⟨h_key, fun h => absurd h h_head⟩
    · refine .inr ⟨h_key, h_head, ih ?_ fun other h_other => h_b other (List.mem_cons_of_mem _ h_other)⟩
      obtain ⟨other, h_other, h_found⟩ := h_a
      obtain rfl | h_other := List.mem_cons.mp h_other
      · exact absurd h_found h_key
      · exact ⟨other, h_other, h_found⟩

/-! ### Gathered lists are in turn -/

section Distinct

variable [DecidableEq α]

theorem appendDistinct_cons (out : List α) (a : α) (l : List α) :
    appendDistinct out (a :: l)
      = if a ∈ out then appendDistinct out l else appendDistinct (out ++ [a]) l := by
  show appendDistinct (if out.contains a then out else out ++ [a]) l = _
  by_cases h : a ∈ out
  · rw [if_pos (List.contains_iff_mem.mpr h), if_pos h]
  · rw [if_neg fun h_mem => h (List.contains_iff_mem.mp h_mem), if_neg h]

theorem appendDistinct_pairwise {R : α → α → Prop} {out block : List α} (h_out : out.Pairwise R)
    (h_block : block.Pairwise fun a b => a ∉ out → b ∉ out → R a b)
    (h_cross : ∀ a ∈ out, ∀ b ∈ block, b ∉ out → R a b) :
    (appendDistinct out block).Pairwise R := by
  induction block generalizing out with
  | nil => exact h_out
  | cons b block ih =>
    rw [List.pairwise_cons] at h_block
    rw [appendDistinct_cons]
    by_cases h_b : b ∈ out
    · rw [if_pos h_b]
      exact ih h_out h_block.2 fun a h_a c h_c => h_cross a h_a c (List.mem_cons_of_mem _ h_c)
    · rw [if_neg h_b]
      have h_next : (out ++ [b]).Pairwise R := by
        rw [List.pairwise_append]
        refine ⟨h_out, List.pairwise_singleton R b, fun a h_a c h_c => ?_⟩
        rw [List.mem_singleton.mp h_c]
        exact h_cross a h_a b List.mem_cons_self h_b
      apply ih h_next
      · exact h_block.2.imp fun h h_a h_c =>
          h (fun h_mem => h_a (List.mem_append_left _ h_mem))
            fun h_mem => h_c (List.mem_append_left _ h_mem)
      · intro a h_a c h_c h_new
        have h_c_out : c ∉ out := fun h_mem => h_new (List.mem_append_left _ h_mem)
        obtain h_a | h_a := List.mem_append.mp h_a
        · exact h_cross a h_a c (List.mem_cons_of_mem _ h_c) h_c_out
        · rw [List.mem_singleton.mp h_a]
          exact h_block.1 c h_c h_b h_c_out

theorem appendDistinct_of_nodup {out l : List α} (h : (out ++ l).Nodup) :
    appendDistinct out l = out ++ l := by
  induction l generalizing out with
  | nil => simp [appendDistinct]
  | cons a l ih =>
    have h_a : a ∉ out := fun h_mem =>
      (List.nodup_append'.mp h).2.2 h_mem List.mem_cons_self
    rw [appendDistinct_cons, if_neg h_a, ih (by simpa using h)]
    simp

variable {block : β → List α}

/-- Keeping first occurrences keeps the turns. -/
theorem appendDistinct_inTurn (h_finds : ∀ key a, a ∈ block key ↔ finds key a) (keys : List β)
    (h_sorted : ∀ key ∈ keys, (block key).Pairwise lt) :
    (appendDistinct [] (keys.flatMap block)).Pairwise fun a b => InTurn finds lt a b keys := by
  -- one more key at the end gives nothing a turn before what was there
  induction keys using List.reverseRecOn with
  | nil => exact List.Pairwise.nil
  | append_singleton keys key ih =>
    have h_found : ∀ a, a ∈ appendDistinct [] (keys.flatMap block) ↔ ∃ k ∈ keys, finds k a := by
      intro a
      simp [h_finds]
    have h_not {a : α} (h : a ∉ appendDistinct [] (keys.flatMap block)) :
        ∀ k ∈ keys, ¬ finds k a := by
      intro k h_k h_a
      exact h ((h_found a).mpr ⟨k, h_k, h_a⟩)
    have h_append : appendDistinct [] ((keys ++ [key]).flatMap block)
        = appendDistinct (appendDistinct [] (keys.flatMap block)) (block key) := by
      rw [List.flatMap_append, List.flatMap_singleton]
      exact List.foldl_append
    rw [h_append]
    apply appendDistinct_pairwise
    · exact (ih fun k h_k => h_sorted k (List.mem_append_left _ h_k)).imp
        fun h => (inTurn_append).mpr (.inl h)
    · refine (h_sorted key (by simp)).imp_of_mem fun h_a h_b h_lt h_new h_new' => ?_
      refine (inTurn_append).mpr (.inr ⟨fun k h_k => ⟨h_not h_new k h_k, h_not h_new' k h_k⟩, ?_⟩)
      exact .inl ⟨(h_finds key _).mp h_a, fun _ => h_lt⟩
    · intro a h_a b _ h_new
      exact (inTurn_append).mpr (.inl (inTurn_of_found ((h_found a).mp h_a) (h_not h_new)))

/-- A gathered list without repetitions is in turn. -/
theorem flatMap_inTurn (h_finds : ∀ key a, a ∈ block key ↔ finds key a) (keys : List β)
    (h_sorted : ∀ key ∈ keys, (block key).Pairwise lt) (h_nodup : (keys.flatMap block).Nodup) :
    (keys.flatMap block).Pairwise fun a b => InTurn finds lt a b keys := by
  have h_distinct := appendDistinct_inTurn h_finds keys h_sorted
  rw [appendDistinct_of_nodup (by simpa using h_nodup)] at h_distinct
  simpa using h_distinct

end Distinct

/-! ### Two lists in turn -/

theorem eq_iff_turns {l l' : List α} {R R' : α → α → Prop} (h : l.Pairwise R)
    (h' : l'.Pairwise R') (h_nodup : l.Nodup) (h_nodup' : l'.Nodup)
    (h_asymm : ∀ a b, R a b → ¬ R b a) (h_asymm' : ∀ a b, R' a b → ¬ R' b a) :
    l = l' ↔ (∀ a, a ∈ l ↔ a ∈ l') ∧ ∀ a ∈ l, ∀ b ∈ l, R a b → R' a b := by
  constructor
  · rintro rfl
    refine ⟨fun a => Iff.rfl, fun a h_a b h_b h_R => ?_⟩
    have h_ne : a ≠ b := by
      rintro rfl
      exact h_asymm a a h_R h_R
    have h_both : l.Pairwise fun a b => R a b ∧ R' a b ∨ R b a ∧ R' b a :=
      (h.and h').imp .inl
    have h_sym : Std.Symm fun a b => R a b ∧ R' a b ∨ R b a ∧ R' b a := ⟨fun a b => Or.symm⟩
    obtain h_ab | h_ba := h_both.forall h_a h_b h_ne
    · exact h_ab.2
    · exact absurd h_ba.1 (h_asymm a b h_R)
  · rintro ⟨h_mem, h_turns⟩
    have h_perm : l.Perm l' := (List.perm_ext_iff_of_nodup h_nodup h_nodup').mpr h_mem
    have h_l : l.Pairwise R' := h.imp_of_mem fun h_a h_b h_R => h_turns _ h_a _ h_b h_R
    refine h_perm.eq_of_pairwise (fun a b _ _ h_ab h_ba => ?_) h_l h'
    exact absurd h_ba (h_asymm' a b h_ab)

end Framework
