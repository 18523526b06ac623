import Mathlib.Data.Char
import Mathlib.Data.List.Lex
import Mathlib.Data.List.Sort
import ServerCentral.Framework.Doubles

/-!
# Stable sorting by a key

`sortOn key` sorts by a key and leaves the elements of one key in the order they had. Two
facts describe it: a part that is in order already keeps its order (`filter_sortOn`), and of
two elements the earlier one has the smaller key, or they have one key and stand as they
stood before (`pairwise_sortOn`).

A key is often a text of fixed width. `digits_lt_iff` is what makes the order of such texts
the order of the numbers written in them: where two texts have one shape, with digits at the
same places, the first place at which they differ decides both.
-/

namespace Framework

/-! ### Sorting by a key -/

section Sorting

variable {α κ : Type*} [LinearOrder κ] {key : α → κ} {l : List α}

def sortOn (key : α → κ) (l : List α) : List α := l.mergeSort fun a b => decide (key a ≤ key b)

theorem sortOn_perm (l : List α) : (sortOn key l).Perm l := List.mergeSort_perm l _

theorem key_trans (a b c : α) (h : decide (key a ≤ key b) = true)
    (h' : decide (key b ≤ key c) = true) : decide (key a ≤ key c) = true :=
  decide_eq_true ((of_decide_eq_true h).trans (of_decide_eq_true h'))

theorem key_total (a b : α) : (decide (key a ≤ key b) || decide (key b ≤ key a)) = true := by
  simpa using le_total (key a) (key b)

theorem sortOn_sorted (l : List α) : (sortOn key l).Pairwise fun a b => key a ≤ key b :=
  (List.pairwise_mergeSort key_trans key_total l).imp of_decide_eq_true

theorem map_sortOn {β : Type*} {key : β → κ} {f : α → β} (l : List α) :
    (sortOn (fun a => key (f a)) l).map f = sortOn key (l.map f) :=
  List.map_mergeSort fun _ _ _ _ => rfl

/-- **What is in order keeps its order.** -/
theorem filter_sortOn {p : α → Bool} (h : (l.filter p).Pairwise fun a b => key a ≤ key b) :
    (sortOn key l).filter p = l.filter p := by
  have h_sub : (l.filter p).Sublist (sortOn key l) :=
    List.sublist_mergeSort key_trans key_total (h.imp decide_eq_true) List.filter_sublist
  have h_filter : (l.filter p).Sublist ((sortOn key l).filter p) := by
    simpa using h_sub.filter p
  have h_perm : (sortOn key l).Perm l := sortOn_perm l
  have h_length := (h_perm.filter p).length_eq
  exact (h_filter.eq_of_length h_length.symm).symm

/-- **Of two elements** the key decides, and for one key the order before the sort. -/
theorem pairwise_sortOn {S : α → α → Prop} (h : l.Pairwise fun a b => key a = key b → S a b) :
    (sortOn key l).Pairwise fun a b => key a < key b ∨ key a = key b ∧ S a b := by
  rw [List.pairwise_iff_forall_sublist]
  intro a b h_sub
  have h_le := List.pairwise_iff_forall_sublist.mp (sortOn_sorted l) h_sub
  obtain h_lt | h_eq := h_le.lt_or_eq
  · exact .inl h_lt
  -- the elements of this key are in order, however they stand
  have h_keep := @filter_sortOn _ _ _ key l (fun c => key c = key a) <| by
    refine List.pairwise_filter.mpr (List.pairwise_of_forall fun c d h_c h_d => ?_)
    exact (of_decide_eq_true h_c).le.trans (of_decide_eq_true h_d).ge
  have h_pair : [a, b].Sublist (l.filter fun c => key c = key a) := by
    rw [← h_keep]
    simpa [h_eq] using h_sub.filter fun c => key c = key a
  exact .inr ⟨h_eq,
    List.pairwise_iff_forall_sublist.mp h (h_pair.trans List.filter_sublist) h_eq⟩

end Sorting

/-! ### Texts of one shape -/

/-- A shape has a `0` where a digit stands, and the text itself elsewhere. -/
def Fits (shape text : List Char) : Prop :=
  List.Forall₂ (fun s c => if s = '0' then isDigitOf 10 c = true else c = s) shape text

instance (shape text : List Char) : Decidable (Fits shape text) :=
  inferInstanceAs (Decidable (List.Forall₂ _ shape text))

/-- The number that the digits of a text write. -/
def digitsNumber (text : List Char) : ℕ := readDigits 10 (text.filter (isDigitOf 10))

theorem readDigits_cons (base : ℕ) (c : Char) (digits : List Char) :
    readDigits base (c :: digits) = digitValue c * base ^ digits.length + readDigits base digits := by
  have h_foldl : ∀ (digits : List Char) (value : ℕ),
      digits.foldl (fun value c => value * base + digitValue c) value
        = value * base ^ digits.length + readDigits base digits := by
    intro digits
    induction digits with
    | nil => simp [readDigits]
    | cons c digits ih =>
      intro value
      have h_all : readDigits base (c :: digits)
          = (0 * base + digitValue c) * base ^ digits.length + readDigits base digits := ih _
      rw [List.foldl_cons, ih, h_all, List.length_cons, pow_succ]
      ring
  rw [readDigits, List.foldl_cons, h_foldl, zero_mul, zero_add]

theorem digitsNumber_cons_digit {c : Char} (h : isDigitOf 10 c = true) (text : List Char) :
    digitsNumber (c :: text)
      = digitValue c * 10 ^ (text.filter (isDigitOf 10)).length + digitsNumber text := by
  rw [digitsNumber, List.filter_cons_of_pos h, readDigits_cons]
  rfl

theorem digitsNumber_lt (text : List Char) :
    digitsNumber text < 10 ^ (text.filter (isDigitOf 10)).length :=
  readDigits_lt fun _ h_c => (List.mem_filter.mp h_c).2

theorem digitValue_lt_iff {c d : Char} (h_c : isDigitOf 10 c = true) (h_d : isDigitOf 10 d = true) :
    c < d ↔ digitValue c < digitValue d := by
  have h_value : ∀ c : Char, isDigitOf 10 c = true →
      digitValue c = c.toNat - '0'.toNat ∧ '0'.toNat ≤ c.toNat := by
    intro c h_c
    have h_range : '0' ≤ c ∧ c ≤ '9' := by
      by_contra h_out
      simp only [isDigitOf, digitValue, if_neg h_out, decide_eq_true_eq] at h_c
      split_ifs at h_c <;> omega
    exact ⟨by rw [digitValue, if_pos h_range], h_range.1⟩
  obtain ⟨h_c, h_zero⟩ := h_value c h_c
  obtain ⟨h_d, h_zero'⟩ := h_value d h_d
  rw [h_c, h_d]
  change c.toNat < d.toNat ↔ _
  omega

/-- Numbers of two places compare place by place. -/
theorem places_lt_iff {x y m n base : ℕ} (h_m : m < base) (h_n : n < base) :
    x * base + m < y * base + n ↔ x < y ∨ x = y ∧ m < n := by
  have h_step : ∀ {x y m n : ℕ}, m < base → x < y → x * base + m < y * base + n := by
    intro x y m n h_m h_lt
    calc x * base + m < x * base + base := Nat.add_lt_add_left h_m _
      _ = (x + 1) * base := (Nat.succ_mul x base).symm
      _ ≤ y * base := Nat.mul_le_mul_right base h_lt
      _ ≤ y * base + n := Nat.le_add_right _ _
  obtain h_lt | rfl | h_gt := lt_trichotomy x y
  · exact iff_of_true (h_step h_m h_lt) (.inl h_lt)
  · simp
  · refine iff_of_false (h_step h_n h_gt).asymm ?_
    omega

/-- Texts of one shape have as many digits. -/
theorem Fits.digits_length {shape a b : List Char} (h_a : Fits shape a) (h_b : Fits shape b) :
    (a.filter (isDigitOf 10)).length = (b.filter (isDigitOf 10)).length := by
  induction h_a generalizing b with
  | nil =>
    cases h_b
    rfl
  | @cons s c shape a h_c _ ih =>
    obtain - | @⟨_, d, _, b, h_d, h_b⟩ := h_b
    have h_same : isDigitOf 10 c = isDigitOf 10 d := by
      split at h_c
      · rw [h_c, if_pos ‹_›] at *
        exact h_d.symm
      · rw [if_neg ‹_›] at h_d
        rw [h_c, h_d]
    cases h_digit : isDigitOf 10 d with
    | true => simp [h_same.trans h_digit, h_digit, ih h_b]
    | false => simp [h_same.trans h_digit, h_digit, ih h_b]

/-- **Texts of one shape** compare as the numbers their digits write. -/
theorem digits_lt_iff {shape a b : List Char} (h_a : Fits shape a) (h_b : Fits shape b) :
    a < b ↔ digitsNumber a < digitsNumber b := by
  induction h_a generalizing b with
  | nil =>
    cases h_b
    simp
  | @cons s c shape a h_c h_a ih =>
    obtain - | @⟨_, d, _, b, h_d, h_b⟩ := h_b
    rw [List.cons_lt_cons_iff, ih h_b]
    split at h_c
    case isTrue h_zero =>
      -- a digit, with a number below the next power of ten behind it
      rw [if_pos h_zero] at h_d
      have h_a_lt := digitsNumber_lt a
      have h_b_lt := digitsNumber_lt b
      rw [Fits.digits_length h_a h_b] at h_a_lt
      rw [digitsNumber_cons_digit h_c, digitsNumber_cons_digit h_d, Fits.digits_length h_a h_b,
        digitValue_lt_iff h_c h_d, places_lt_iff h_a_lt h_b_lt]
      have h_eq : c = d ↔ digitValue c = digitValue d := by
        refine ⟨fun h => h ▸ rfl, fun h => ?_⟩
        exact le_antisymm
          (not_lt.mp fun h_lt => ((digitValue_lt_iff h_d h_c).mp h_lt).ne h.symm)
          (not_lt.mp fun h_lt => ((digitValue_lt_iff h_c h_d).mp h_lt).ne h)
      rw [h_eq]
    case isFalse h_text =>
      rw [if_neg h_text] at h_d
      obtain rfl := h_c.trans h_d.symm
      cases h_digit : isDigitOf 10 c with
      | true =>
        rw [digitsNumber_cons_digit h_digit, digitsNumber_cons_digit h_digit,
          Fits.digits_length h_a h_b]
        simp
      | false => simp [digitsNumber, h_digit]

end Framework
