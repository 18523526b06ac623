import Mathlib.Data.List.Forall2
import Mathlib.Data.List.Nodup
import Mathlib.Data.List.Sort

/-!
# First and last matches in a list

A table of rules is often sorted once and then searched from the front, so that the order
of the sort decides which of several matching rules is taken. `find?_first` is what the
order says about the rule that is found; `pairwise_mergeSort_on` sorts by a comparison
that is an order only on the elements at hand; `findIdx?_forall₂` transports a search to
a list that was produced element by element. `appendDistinct` collects entries in the order
of their first occurrence.
-/

namespace Framework

variable {α β : Type*}

/-- **The first match** of a sorted list stands before every other match. -/
theorem find?_first {R : α → α → Prop} {l : List α} (h_sorted : l.Pairwise R) {p : α → Bool}
    {a b : α} (h : l.find? p = some a) (h_b : b ∈ l) (h_p : p b = true) : b = a ∨ R a b := by
  obtain ⟨-, before, after, rfl, h_before⟩ := List.find?_eq_some_iff_append.mp h
  obtain h_b | h_b := List.mem_append.mp h_b
  · have h_not := h_before b h_b
    rw [h_p] at h_not
    exact absurd h_not (by simp)
  · obtain rfl | h_b := List.mem_cons.mp h_b
    · exact .inl rfl
    · have h_rest := (List.pairwise_append.mp h_sorted).2.1
      exact .inr ((List.pairwise_cons.mp h_rest).1 b h_b)

/-- **Sorting the elements of a domain** on which the comparison is transitive and total. -/
theorem pairwise_mergeSort_on {P : α → Prop} {le : α → α → Bool}
    (h_trans : ∀ a b c, P a → P b → P c → le a b = true → le b c = true → le a c = true)
    (h_total : ∀ a b, P a → P b → (le a b || le b a) = true) {l : List α} (h : ∀ a ∈ l, P a) :
    (l.mergeSort le).Pairwise fun a b => le a b = true := by
  have h_map : ((l.attachWith P h).mergeSort fun a b => le a.1 b.1).map Subtype.val =
      l.mergeSort le := by
    rw [List.map_mergeSort (s := le) fun _ _ _ _ => rfl, List.attachWith_map_subtype_val]
  rw [← h_map, List.pairwise_map]
  exact List.pairwise_mergeSort (fun a b c => h_trans a.1 b.1 c.1 a.2 b.2 c.2)
    (fun a b => h_total a.1 b.1 a.2 b.2) _

/-- Searching two lists whose elements correspond. -/
theorem findIdx?_forall₂ {R : α → β → Prop} {p : α → Bool} {q : β → Bool}
    (h : ∀ a b, R a b → p a = q b) {l : List α} {l' : List β} (h_l : List.Forall₂ R l l') :
    l.findIdx? p = l'.findIdx? q := by
  induction h_l with
  | nil => rfl
  | cons h_ab _ ih => rw [List.findIdx?_cons, List.findIdx?_cons, h _ _ h_ab, ih]

/-- The element at the index a search finds. -/
theorem getElem?_findIdx? {p : α → Bool} (l : List α) :
    ((l.findIdx? p).bind fun i => l[i]?) = l.find? p := by
  induction l with
  | nil => rfl
  | cons a l ih =>
    rw [List.findIdx?_cons, List.find?_cons]
    cases h : p a with
    | true => simp
    | false =>
      rw [← ih]
      cases l.findIdx? p <;> simp

/-! ### The last entry with a property -/

/-- `a`, at position `i`, is the last entry with the property `p`. -/
structure LastWith (p : α → Prop) (l : List α) (i : ℕ) (a : α) : Prop where
  at_index : l[i]? = some a
  holds : p a
  later : ∀ j b, i < j → l[j]? = some b → ¬p b

namespace LastWith

variable {p : α → Prop} {l : List α} {i k : ℕ} {a a' b : α}

/-- The last entry of all, when it has the property. -/
theorem of_getLast (h : l.getLast? = some a) (h_p : p a) : LastWith p l (l.length - 1) a := by
  rw [List.getLast?_eq_getElem?] at h
  refine ⟨h, h_p, fun j b h_j h_b => ?_⟩
  have h_lt := (List.getElem?_eq_some_iff.mp h_b).1
  omega

/-- An added entry without the property is not the last one with it. -/
theorem of_append (h : LastWith p (l ++ [b]) k a) (h_b : ¬p b) : LastWith p l k a := by
  have h_lt : k < l.length := by
    by_contra h_ge
    have h_k := (List.getElem?_eq_some_iff.mp h.at_index).1
    rw [List.length_append, List.length_singleton] at h_k
    obtain rfl : k = l.length := by omega
    have h_at := h.at_index
    rw [List.getElem?_concat_length] at h_at
    exact h_b (Option.some.inj h_at ▸ h.holds)
  refine ⟨?_, h.holds, fun j c h_j h_c => h.later j c h_j ?_⟩
  · rw [← List.getElem?_append_left h_lt]
    exact h.at_index
  · rw [List.getElem?_append_left (List.getElem?_eq_some_iff.mp h_c).1]
    exact h_c

/-- An added entry with the property is the last one. -/
theorem eq_of_append (h : LastWith p (l ++ [b]) k a) (h_b : p b) : a = b := by
  have h_k := (List.getElem?_eq_some_iff.mp h.at_index).1
  rw [List.length_append, List.length_singleton] at h_k
  by_cases h_lt : k < l.length
  · exact absurd h_b (h.later l.length b h_lt List.getElem?_concat_length)
  · obtain rfl : k = l.length := by omega
    have h_at := h.at_index
    rw [List.getElem?_concat_length] at h_at
    exact (Option.some.inj h_at).symm

/-- Replacing an entry by one that has the property as it did. -/
theorem of_set (h_i : l[i]? = some a) (h_p : p a' ↔ p a) (h : LastWith p (l.set i a') k b) :
    ∃ b₀, LastWith p l k b₀ ∧ (b = b₀ ∨ b₀ = a ∧ b = a') := by
  have h_len := (List.getElem?_eq_some_iff.mp h_i).1
  have h_later : ∀ j c, k < j → l[j]? = some c → ¬p c := by
    intro j c h_j h_c
    by_cases h_ij : i = j
    · rw [← h_ij, h_i] at h_c
      obtain rfl := Option.some.inj h_c
      refine fun h_pa => h.later j a' h_j ?_ (h_p.mpr h_pa)
      rw [← h_ij, List.getElem?_set_self h_len]
    · refine h.later j c h_j ?_
      rw [List.getElem?_set_ne h_ij]
      exact h_c
  by_cases h_ik : i = k
  · have h_at := h.at_index
    rw [← h_ik, List.getElem?_set_self h_len] at h_at
    obtain rfl := Option.some.inj h_at
    exact ⟨a, ⟨h_ik ▸ h_i, h_p.mp h.holds, h_later⟩, .inr ⟨rfl, rfl⟩⟩
  · have h_at := h.at_index
    rw [List.getElem?_set_ne h_ik] at h_at
    exact ⟨b, ⟨h_at, h.holds, h_later⟩, .inl rfl⟩

/-- Replacing an entry, after which no other has the property, by one that has it. -/
theorem eq_of_set (h_i : l[i]? = some a) (h_p : p a')
    (h_none : ∀ j c, i < j → l[j]? = some c → ¬p c) (h : LastWith p (l.set i a') k b) : b = a' := by
  have h_len := (List.getElem?_eq_some_iff.mp h_i).1
  obtain h_lt | rfl | h_gt := Nat.lt_trichotomy k i
  · exact absurd h_p (h.later i a' h_lt (List.getElem?_set_self h_len))
  · have h_at := h.at_index
    rw [List.getElem?_set_self h_len] at h_at
    exact (Option.some.inj h_at).symm
  · have h_at := h.at_index
    rw [List.getElem?_set_ne (Nat.ne_of_lt h_gt)] at h_at
    exact absurd h.holds (h_none k b h_gt h_at)

end LastWith

/-! ### Distinct entries -/

section Distinct

variable [DecidableEq α]

/-- Append the entries of a list that are not there yet, each one once. -/
def appendDistinct (out l : List α) : List α :=
  l.foldl (fun out a => if out.contains a then out else out ++ [a]) out

@[simp] theorem mem_appendDistinct {out l : List α} {a : α} :
    a ∈ appendDistinct out l ↔ a ∈ out ∨ a ∈ l := by
  induction l generalizing out with
  | nil => simp [appendDistinct]
  | cons b l ih =>
    show a ∈ appendDistinct (if out.contains b then out else out ++ [b]) l ↔ _
    rw [ih]
    by_cases h : b ∈ out
    · rw [if_pos (List.contains_iff_mem.mpr h), List.mem_cons]
      constructor
      · exact fun h_a => h_a.imp_right .inr
      · rintro (h_a | rfl | h_a)
        · exact .inl h_a
        · exact .inl h
        · exact .inr h_a
    · rw [if_neg fun h_b => h (List.contains_iff_mem.mp h_b), List.mem_append, List.mem_singleton,
        List.mem_cons, or_assoc]

/-- Appending distinct entries keeps a list distinct. -/
theorem nodup_appendDistinct {out l : List α} (h : out.Nodup) :
    (appendDistinct out l).Nodup := by
  induction l generalizing out with
  | nil => exact h
  | cons b l ih =>
    show (appendDistinct (if out.contains b then out else out ++ [b]) l).Nodup
    by_cases h_b : b ∈ out
    · rw [if_pos (List.contains_iff_mem.mpr h_b)]
      exact ih h
    · rw [if_neg fun h_c => h_b (List.contains_iff_mem.mp h_c)]
      refine ih (List.nodup_append'.mpr ⟨h, List.nodup_singleton b, ?_⟩)
      exact List.disjoint_singleton.mpr h_b

end Distinct

end Framework
