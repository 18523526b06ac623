import Mathlib.Data.List.Basic

/-!
# The digits of a number in a text

`forall_toDigits` is what holds of all digits of a number. What a scanner meets in a decimal
number: only digits, at least one of them, and the number again.
-/

namespace Framework

theorem forall_toDigits {p : Char → Prop} {base n : ℕ} (h_base : 1 < base)
    (h : ∀ d < base, p (Nat.digitChar d)) : ∀ c ∈ Nat.toDigits base n, p c := by
  induction n using Nat.strongRecOn with
  | ind n ih =>
    intro c h_c
    rw [Nat.toDigits_eq_if h_base] at h_c
    split at h_c
    · next h_lt =>
      obtain rfl := List.mem_singleton.mp h_c
      exact h n h_lt
    · next h_ge =>
      obtain h_c | h_c := List.mem_append.mp h_c
      · exact ih (n / base) (Nat.div_lt_self (by omega) h_base) c h_c
      · obtain rfl := List.mem_singleton.mp h_c
        exact h _ (Nat.mod_lt n (Nat.lt_of_succ_lt h_base))

/-- No digit in front is a zero. -/
theorem head_toDigits {base n : ℕ} (h_base : 1 < base) (h_small : base ≤ 16) (h : n ≠ 0) :
    (Nat.toDigits base n).head? ≠ some '0' := by
  have h_digit : ∀ d < 16, d ≠ 0 → Nat.digitChar d ≠ '0' := by decide
  induction n using Nat.strongRecOn with
  | ind n ih =>
    rw [Nat.toDigits_eq_if h_base]
    split
    · next h_lt =>
      rw [List.head?_cons, ne_eq, Option.some.injEq]
      exact h_digit n (Nat.lt_of_lt_of_le h_lt h_small) h
    · next h_ge =>
      have h_front : n / base ≠ 0 := Nat.ne_of_gt (Nat.div_pos (by omega) (by omega))
      rw [List.head?_append_of_ne_nil _ Nat.toDigits_ne_nil]
      exact ih (n / base) (Nat.div_lt_self (by omega) h_base) h_front

/-! ### Decimal digits -/

theorem isDigit_toDigits {n : ℕ} {c : Char} (h : c ∈ Nat.toDigits 10 n) : c.isDigit = true :=
  Nat.isDigit_of_mem_toDigits (by decide) (by decide) h

theorem notMem_toDigits {n : ℕ} {c : Char} (h : c.isDigit = false) : c ∉ Nat.toDigits 10 n := by
  intro h_mem
  rw [isDigit_toDigits h_mem] at h
  exact absurd h (by simp)

/-- The digits end where a character that is no digit follows. -/
theorem takeWhile_toDigits (n : ℕ) {c : Char} (h : c.isDigit = false) (rest : List Char) :
    (Nat.toDigits 10 n ++ c :: rest).takeWhile Char.isDigit = Nat.toDigits 10 n := by
  rw [List.takeWhile_append_of_pos fun d h_d => isDigit_toDigits h_d,
    List.takeWhile_cons_of_neg (by simp [h]), List.append_nil]

theorem dropWhile_toDigits (n : ℕ) {c : Char} (h : c.isDigit = false) (rest : List Char) :
    (Nat.toDigits 10 n ++ c :: rest).dropWhile Char.isDigit = c :: rest := by
  rw [List.dropWhile_append_of_pos fun d h_d => isDigit_toDigits h_d,
    List.dropWhile_cons_of_neg (by simp [h])]

theorem toDigits_inj {n m : ℕ} (h : Nat.toDigits 10 n = Nat.toDigits 10 m) : n = m := by
  calc
    n = Nat.ofDigitChars 10 (Nat.toDigits 10 n) 0 := Nat.ofDigitChars_ten_toDigits.symm
    _ = Nat.ofDigitChars 10 (Nat.toDigits 10 m) 0 := by rw [h]
    _ = m := Nat.ofDigitChars_ten_toDigits

end Framework
