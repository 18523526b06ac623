import Mathlib.Data.List.Infix
import Mathlib.Data.Nat.Basic
import Mathlib.Order.Basic

/-!
# Cutting a sequence at a delimiter

`cut needle l` splits `l` around the first occurrence of `needle`. The sequence may arrive
in pieces: a cut that has been found stays where it is when more arrives (`cut_append`),
and what precedes the last `needle.length - 1` elements of a sequence without the delimiter
can be handed out before the rest is known (`cut_of_held`).
-/

namespace Framework

variable {α : Type*} [DecidableEq α]

/-- `needle` stands at position `i` of `l`. -/
def OccursAt (needle l : List α) (i : Nat) : Prop := needle <+: l.drop i

instance (needle l : List α) (i : Nat) : Decidable (OccursAt needle l i) :=
  inferInstanceAs (Decidable (needle <+: l.drop i))

/-- The first position from `start` on at which `needle` stands in `l`. -/
def findFrom (needle l : List α) (start : Nat) : Option Nat :=
  (List.range' start (l.length + 1 - needle.length - start)).find? fun i =>
    decide (OccursAt needle l i)

/-- What precedes the first occurrence of `needle`, and what follows it. -/
def cut (needle l : List α) : Option (List α × List α) :=
  (findFrom needle l 0).map fun i => (l.take i, l.drop (i + needle.length))

/-! ### Occurrences -/

section Occurs

variable {needle l : List α} {i : Nat}

omit [DecidableEq α] in
/-- An occurrence fits into the sequence. -/
theorem OccursAt.le (h_needle : needle ≠ []) (h : OccursAt needle l i) :
    i + needle.length ≤ l.length := by
  have h_len := h.length_le
  rw [List.length_drop] at h_len
  have h_pos := List.length_pos_of_ne_nil h_needle
  omega

omit [DecidableEq α] in
theorem occursAt_iff : OccursAt needle l i ↔ ∃ b, l.drop i = needle ++ b :=
  ⟨fun ⟨b, h⟩ => ⟨b, h.symm⟩, fun ⟨b, h⟩ => ⟨b, h.symm⟩⟩

omit [DecidableEq α] in
/-- An occurrence stays when more arrives. -/
theorem OccursAt.append (h_needle : needle ≠ []) (h : OccursAt needle l i) (m : List α) :
    OccursAt needle (l ++ m) i := by
  have h_le := h.le h_needle
  obtain ⟨b, h_eq⟩ := (occursAt_iff).mp h
  refine (occursAt_iff).mpr ⟨b ++ m, ?_⟩
  rw [List.drop_append_of_le_length (by omega), h_eq, List.append_assoc]

omit [DecidableEq α] in
/-- An occurrence within the first part was there before more arrived. -/
theorem OccursAt.of_append {m : List α} (h : OccursAt needle (l ++ m) i)
    (h_le : i + needle.length ≤ l.length) : OccursAt needle l i := by
  have h' : needle <+: l.drop i ++ m := by
    rw [← List.drop_append_of_le_length (by omega)]
    exact h
  exact List.prefix_of_prefix_length_le h' (List.prefix_append _ _)
    (by rw [List.length_drop]; omega)

omit [DecidableEq α] in
theorem occursAt_drop {k : Nat} : OccursAt needle (l.drop k) i ↔ OccursAt needle l (k + i) := by
  rw [OccursAt, OccursAt, List.drop_drop]

omit [DecidableEq α] in
/-- The delimiter begins with its first element. -/
theorem OccursAt.head {c : α} {t : List α} (h : OccursAt (c :: t) l i) : l[i]? = some c := by
  obtain ⟨b, h_eq⟩ := (occursAt_iff).mp h
  have h_get : (l.drop i)[0]? = some c := by rw [h_eq]; rfl
  simpa using h_get

end Occurs

/-! ### Searching -/

section Find

variable {needle l : List α}

theorem findFrom_eq_some {start i : Nat} (h : findFrom needle l start = some i) :
    start ≤ i ∧ OccursAt needle l i ∧ i + needle.length ≤ l.length ∧
      ∀ j, start ≤ j → j < i → ¬OccursAt needle l j := by
  obtain ⟨h_occurs, as, bs, h_range, h_before⟩ := List.find?_eq_some_iff_append.mp h
  have h_mem : i ∈ List.range' start (l.length + 1 - needle.length - start) := by
    rw [h_range]
    simp
  have h_as : as.length = i - start ∧ start ≤ i := by
    have h_get : (List.range' start (l.length + 1 - needle.length - start))[as.length]? = some i := by
      rw [h_range]
      simp
    rw [List.getElem?_eq_some_iff] at h_get
    obtain ⟨_, h_get⟩ := h_get
    rw [List.getElem_range'] at h_get
    omega
  rw [List.mem_range'_1] at h_mem
  refine ⟨h_mem.1, of_decide_eq_true h_occurs, by omega, fun j h_le h_lt h_j => ?_⟩
  have h_j_mem : j ∈ as := by
    have h_get : (as ++ i :: bs)[j - start]? = some j := by
      rw [← h_range, List.getElem?_eq_some_iff]
      refine ⟨by rw [List.length_range']; omega, ?_⟩
      rw [List.getElem_range']
      omega
    rw [List.getElem?_append_left (by omega)] at h_get
    exact List.mem_of_getElem? h_get
  have h_not := h_before j h_j_mem
  simp [h_j] at h_not

theorem findFrom_eq_none (h_needle : needle ≠ []) {start : Nat} :
    findFrom needle l start = none ↔ ∀ j, start ≤ j → ¬OccursAt needle l j := by
  rw [findFrom, List.find?_eq_none]
  constructor
  · intro h j h_le h_occurs
    have h_fits := h_occurs.le h_needle
    exact h j (List.mem_range'_1.mpr ⟨h_le, by omega⟩) (decide_eq_true h_occurs)
  · intro h j h_mem h_dec
    exact h j (List.mem_range'_1.mp h_mem).1 (of_decide_eq_true h_dec)

/-- A search may skip what is known to hold no delimiter. -/
theorem findFrom_skip (h_needle : needle ≠ []) {start : Nat}
    (h : ∀ j < start, ¬OccursAt needle l j) : findFrom needle l start = findFrom needle l 0 := by
  cases h_find : findFrom needle l start with
  | none =>
    rw [findFrom_eq_none h_needle] at h_find
    refine ((findFrom_eq_none h_needle).mpr fun j _ => ?_).symm
    by_cases h_lt : j < start
    · exact h j h_lt
    · exact h_find j (by omega)
  | some i =>
    obtain ⟨h_le, h_occurs, -, h_first⟩ := findFrom_eq_some h_find
    cases h_zero : findFrom needle l 0 with
    | none =>
      rw [findFrom_eq_none h_needle] at h_zero
      exact absurd h_occurs (h_zero i (Nat.zero_le i))
    | some i' =>
      obtain ⟨-, h_occurs', -, h_first'⟩ := findFrom_eq_some h_zero
      have h_start : start ≤ i' := by
        by_contra h_lt
        exact h i' (by omega) h_occurs'
      have h_i : ¬i < i' := fun h_lt => h_first' i (Nat.zero_le i) h_lt h_occurs
      have h_i' : ¬i' < i := fun h_lt => h_first i' h_start h_lt h_occurs'
      congr 1
      omega

end Find

/-! ### Cutting -/

section Cut

variable {needle l a b : List α}

theorem cut_eq_some_iff (h_needle : needle ≠ []) :
    cut needle l = some (a, b) ↔
      l = a ++ (needle ++ b) ∧ ∀ j < a.length, ¬OccursAt needle l j := by
  constructor
  · intro h
    obtain ⟨i, h_find, h_eq⟩ := Option.map_eq_some_iff.mp h
    obtain ⟨rfl, rfl⟩ := Prod.mk.inj h_eq
    obtain ⟨-, h_occurs, h_le, h_first⟩ := findFrom_eq_some h_find
    refine ⟨?_, fun j h_j => h_first j (Nat.zero_le j) ?_⟩
    · obtain ⟨b, h_b⟩ := (occursAt_iff).mp h_occurs
      have h_rest : l.drop (i + needle.length) = b := by
        rw [← List.drop_drop, h_b, List.drop_left]
      rw [h_rest, ← h_b, List.take_append_drop]
    · rw [List.length_take] at h_j
      omega
  · rintro ⟨rfl, h_first⟩
    have h_occurs : OccursAt needle (a ++ (needle ++ b)) a.length :=
      (occursAt_iff).mpr ⟨b, by rw [List.drop_left]⟩
    cases h_find : findFrom needle (a ++ (needle ++ b)) 0 with
    | none =>
      rw [findFrom_eq_none h_needle] at h_find
      exact absurd h_occurs (h_find _ (Nat.zero_le _))
    | some i =>
      obtain ⟨-, h_i, -, h_before⟩ := findFrom_eq_some h_find
      have h_ge : ¬i < a.length := fun h_lt => h_first i h_lt h_i
      have h_le : ¬a.length < i := fun h_lt => h_before _ (Nat.zero_le _) h_lt h_occurs
      obtain rfl : i = a.length := by omega
      rw [cut, h_find, Option.map_some, List.take_left, ← List.drop_drop, List.drop_left,
        List.drop_left]

theorem cut_eq_none_iff (h_needle : needle ≠ []) :
    cut needle l = none ↔ ∀ j, ¬OccursAt needle l j := by
  rw [cut, Option.map_eq_none_iff, findFrom_eq_none h_needle]
  exact ⟨fun h j => h j (Nat.zero_le j), fun h j _ => h j⟩

/-- A cut stays where it is when more arrives. -/
theorem cut_append (h_needle : needle ≠ []) (h : cut needle l = some (a, b)) (m : List α) :
    cut needle (l ++ m) = some (a, b ++ m) := by
  obtain ⟨rfl, h_first⟩ := (cut_eq_some_iff h_needle).mp h
  refine (cut_eq_some_iff h_needle).mpr ⟨by simp, fun j h_j h_occurs => h_first j h_j ?_⟩
  refine h_occurs.of_append ?_
  simp only [List.length_append]
  omega

/-- Elements before which no delimiter stands belong to what precedes the cut. -/
theorem cut_drop (h_needle : needle ≠ []) {k : Nat} (h_k : k ≤ l.length)
    (h : ∀ j < k, ¬OccursAt needle l j) :
    cut needle l = (cut needle (l.drop k)).map fun p => (l.take k ++ p.1, p.2) := by
  cases h_cut : cut needle (l.drop k) with
  | none =>
    rw [cut_eq_none_iff h_needle] at h_cut
    refine (cut_eq_none_iff h_needle).mpr fun j h_occurs => ?_
    by_cases h_lt : j < k
    · exact h j h_lt h_occurs
    · refine h_cut (j - k) (occursAt_drop.mpr ?_)
      rwa [Nat.add_sub_cancel' (by omega)]
  | some p =>
    obtain ⟨h_eq, h_first⟩ := (cut_eq_some_iff h_needle).mp h_cut
    refine (cut_eq_some_iff h_needle).mpr ⟨?_, fun j h_j h_occurs => ?_⟩
    · rw [List.append_assoc, ← h_eq, List.take_append_drop]
    · rw [List.length_append, List.length_take] at h_j
      by_cases h_lt : j < k
      · exact h j h_lt h_occurs
      · refine h_first (j - k) (by omega) (occursAt_drop.mpr ?_)
        rwa [Nat.add_sub_cancel' (by omega)]

/-- **What can be handed out early.** All but the last `needle.length - 1` elements of a
sequence without the delimiter precede the cut, whatever arrives. -/
theorem cut_of_held (h_needle : needle ≠ []) (h : cut needle l = none) (m : List α) :
    cut needle (l ++ m) =
      (cut needle (l.drop (l.length - (needle.length - 1)) ++ m)).map fun p =>
        (l.take (l.length - (needle.length - 1)) ++ p.1, p.2) := by
  have h_pos := List.length_pos_of_ne_nil h_needle
  rw [cut_drop h_needle (k := l.length - (needle.length - 1)) (by simp; omega)]
  · rw [List.drop_append_of_le_length (by omega), List.take_append_of_le_length (by omega)]
  · intro j h_j h_occurs
    exact (cut_eq_none_iff h_needle).mp h j (h_occurs.of_append (by omega))

/-- Where the first element of the delimiter does not occur, no delimiter stands. -/
theorem cut_of_notMem {c : α} {t : List α} (h : c ∉ a) (b : List α) :
    cut (c :: t) (a ++ (c :: t ++ b)) = some (a, b) := by
  refine (cut_eq_some_iff (List.cons_ne_nil c t)).mpr ⟨rfl, fun j h_j h_occurs => h ?_⟩
  have h_get := h_occurs.head
  rw [List.getElem?_append_left h_j] at h_get
  exact List.mem_of_getElem? h_get

theorem findFrom_of_notMem {c : α} {t : List α} (h : c ∉ a) (b : List α) :
    findFrom (c :: t) (a ++ (c :: t ++ b)) 0 = some a.length := by
  obtain ⟨i, h_find, h_eq⟩ := Option.map_eq_some_iff.mp (cut_of_notMem (t := t) h b)
  obtain ⟨-, -, h_le, -⟩ := findFrom_eq_some h_find
  have h_length := congrArg List.length (Prod.mk.inj h_eq).1
  rw [List.length_take] at h_length
  rw [h_find]
  congr 1
  omega

/-- A delimiter whose first element does not recur in it cannot overlap itself: what does not
contain it is what precedes the cut. -/
theorem cut_of_unbordered {c : α} {t : List α} (h_t : c ∉ t) (h_a : ¬(c :: t) <:+: a)
    (b : List α) : cut (c :: t) (a ++ (c :: t ++ b)) = some (a, b) := by
  refine (cut_eq_some_iff (List.cons_ne_nil c t)).mpr ⟨rfl, fun j h_j h_occurs => ?_⟩
  by_cases h_fits : j + (c :: t).length ≤ a.length
  · obtain ⟨b', h_eq⟩ := (occursAt_iff).mp (h_occurs.of_append h_fits)
    exact h_a ⟨a.take j, b', by rw [List.append_assoc, ← h_eq, List.take_append_drop]⟩
  · -- the occurrence would reach over the first element of the one that follows `a`
    obtain ⟨b', h_eq⟩ := (occursAt_iff).mp h_occurs
    rw [List.drop_append_of_le_length (by omega)] at h_eq
    have h_len : (a.drop j).length = a.length - j := List.length_drop
    have h_get : ((c :: t) ++ b')[a.length - j]? = some c := by
      rw [← h_eq, List.getElem?_append_right (by omega), h_len, Nat.sub_self]
      rfl
    rw [List.getElem?_append_left (by simp at h_fits ⊢; omega)] at h_get
    obtain ⟨n, h_n⟩ : ∃ n, a.length - j = n + 1 := ⟨a.length - j - 1, by omega⟩
    rw [h_n, List.getElem?_cons_succ] at h_get
    exact h_t (List.mem_of_getElem? h_get)

end Cut

end Framework
