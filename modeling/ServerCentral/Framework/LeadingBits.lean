import Mathlib.Data.List.Basic
import Mathlib.Data.List.TakeDrop

/-!
# Leading bits of byte strings

`leadingBits bytes n` are the first `n` bits, the most significant bit of each byte first. Two
strings agree on them when their whole bytes do and, of the byte after those, what a mask of
ones from the left keeps (`leadingBits_eq_iff`).
-/

namespace Framework

/-- Bit `i` of a byte, from the left. -/
def bitOf (b : UInt8) (i : ℕ) : Bool := b.toBitVec.getMsbD i

/-- The eight bits of a byte, from the left. -/
def byteBits (b : UInt8) : List Bool := (List.range 8).map (bitOf b)

def leadingBits (bytes : List UInt8) (n : ℕ) : List Bool := (bytes.flatMap byteBits).take n

@[simp] theorem length_byteBits (b : UInt8) : (byteBits b).length = 8 := by
  rw [byteBits, List.length_map, List.length_range]

@[simp] theorem leadingBits_zero (bytes : List UInt8) : leadingBits bytes 0 = [] := rfl

theorem byteBits_injective {a b : UInt8} (h : byteBits a = byteBits b) : a = b := by
  apply UInt8.toBitVec_inj.mp
  apply BitVec.eq_of_getMsbD_eq
  intro i h_i
  have h_get := congrArg (·[i]?) h
  simpa [byteBits, bitOf, h_i] using h_get

theorem take_byteBits_eq_iff {a b : UInt8} {r : ℕ} (h_r : r ≤ 8) :
    (byteBits a).take r = (byteBits b).take r ↔ ∀ i < r, bitOf a i = bitOf b i := by
  constructor
  · intro h i h_i
    have h_get := congrArg (·[i]?) h
    have h_eight : i < 8 := by omega
    simpa [byteBits, h_i, h_eight] using h_get
  · intro h
    rw [byteBits, byteBits, ← List.map_take, ← List.map_take]
    apply List.map_congr_left
    intro i h_i
    rw [List.take_range, List.mem_range] at h_i
    exact h i (by omega)

/-- The byte whose first `r` bits are ones. -/
def leadingMask (r : ℕ) : UInt8 := UInt8.ofNat (0xff <<< (8 - r) &&& 0xff)

theorem bitOf_leadingMask {r i : ℕ} (h_r : r ≤ 8) (h_i : i < 8) :
    bitOf (leadingMask r) i = decide (i < r) := by
  revert h_r h_i
  suffices h : ∀ r ≤ 8, ∀ i < 8, bitOf (leadingMask r) i = decide (i < r) from
    fun h_r h_i => h r h_r i h_i
  decide

theorem bitOf_and (a b : UInt8) (i : ℕ) : bitOf (a &&& b) i = (bitOf a i && bitOf b i) := by
  rw [bitOf, UInt8.toBitVec_and, BitVec.getMsbD_and]
  rfl

/-- **A mask of ones from the left** keeps the first bits. -/
theorem and_leadingMask_eq_iff {a b : UInt8} {r : ℕ} (h_r : r ≤ 8) :
    a &&& leadingMask r = b &&& leadingMask r ↔ (byteBits a).take r = (byteBits b).take r := by
  rw [take_byteBits_eq_iff h_r]
  constructor
  · intro h i h_i
    have h_bit := congrArg (bitOf · i) h
    rw [bitOf_and, bitOf_and, bitOf_leadingMask h_r (by omega)] at h_bit
    simpa [h_i] using h_bit
  · intro h
    apply byteBits_injective
    apply List.map_congr_left
    intro i h_i
    rw [bitOf_and, bitOf_and, bitOf_leadingMask h_r (List.mem_range.mp h_i)]
    by_cases h_lt : i < r
    · rw [h i h_lt]
    · simp [h_lt]

theorem leadingBits_cons_of_lt {a : UInt8} {l : List UInt8} {n : ℕ} (h : n ≤ 8) :
    leadingBits (a :: l) n = (byteBits a).take n := by
  rw [leadingBits, List.flatMap_cons, List.take_append_of_le_length]
  rw [length_byteBits]
  exact h

theorem leadingBits_cons_add (a : UInt8) (l : List UInt8) (n : ℕ) :
    leadingBits (a :: l) (n + 8) = byteBits a ++ leadingBits l n := by
  have h_take : (byteBits a).take (n + 8) = byteBits a := List.take_of_length_le (by simp)
  rw [leadingBits, List.flatMap_cons, List.take_append, h_take, length_byteBits,
    Nat.add_sub_cancel, leadingBits]

/-- **Agreement on the first bits**, read off the whole bytes and the mask of the next one. -/
theorem leadingBits_eq_iff {a b : List UInt8} (h_length : a.length = b.length) {n : ℕ}
    (h_n : n ≤ 8 * a.length) :
    leadingBits a n = leadingBits b n ↔
      a.take (n / 8) = b.take (n / 8) ∧ (n % 8 = 0 ∨
        a[n / 8]?.getD 0 &&& leadingMask (n % 8) = b[n / 8]?.getD 0 &&& leadingMask (n % 8)) := by
  induction a generalizing b n with
  | nil =>
    obtain rfl : b = [] := List.length_eq_zero_iff.mp h_length.symm
    obtain rfl : n = 0 := Nat.le_zero.mp h_n
    simp
  | cons x a ih =>
    cases b with
    | nil => cases h_length
    | cons y b =>
      obtain h_lt | ⟨m, rfl⟩ : n < 8 ∨ ∃ m, n = m + 8 := by
        by_cases h : n < 8
        · exact .inl h
        · exact .inr ⟨n - 8, by omega⟩
      · have h_le : n ≤ 8 := Nat.le_of_lt h_lt
        rw [leadingBits_cons_of_lt h_le, leadingBits_cons_of_lt h_le,
          Nat.div_eq_of_lt h_lt, Nat.mod_eq_of_lt h_lt, ← and_leadingMask_eq_iff h_le]
        simp only [List.take_zero, true_and, List.getElem?_cons_zero, Option.getD_some]
        constructor
        · exact .inr
        · rintro (rfl | h)
          · have h_mask : leadingMask 0 = 0 := rfl
            rw [h_mask, UInt8.and_zero, UInt8.and_zero]
          · exact h
      · have h_m : m ≤ 8 * a.length := by
          rw [List.length_cons] at h_n
          omega
        have h_heads : byteBits x ++ leadingBits a m = byteBits y ++ leadingBits b m ↔
            x = y ∧ leadingBits a m = leadingBits b m := by
          constructor
          · intro h
            obtain ⟨h_x, h_rest⟩ := List.append_inj h (by simp)
            exact ⟨byteBits_injective h_x, h_rest⟩
          · rintro ⟨rfl, h⟩
            rw [h]
        have h_div : (m + 8) / 8 = m / 8 + 1 := by omega
        have h_mod : (m + 8) % 8 = m % 8 := by omega
        rw [leadingBits_cons_add, leadingBits_cons_add, h_heads,
          ih (Nat.succ.inj h_length) h_m, h_div, h_mod, List.take_succ_cons,
          List.take_succ_cons, List.getElem?_cons_succ, List.getElem?_cons_succ, List.cons.injEq,
          and_assoc]

end Framework
