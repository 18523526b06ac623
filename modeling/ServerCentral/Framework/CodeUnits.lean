import Mathlib.Data.List.Lex
import Mathlib.Data.List.Sort
import ServerCentral.Framework.FirstMatch

/-!
# Sorting strings by code units

A sort without a comparison function orders strings by their UTF-16 code units, which is
not the order of the code points above the Basic Multilingual Plane. `codeUnits` is the
encoding, `codeUnits_injective` makes the order antisymmetric, and
`sortStrings_eq_of_mem_iff` is what one uses of a sort that follows a collection of
distinct strings: it depends on which strings there are and on nothing else.
-/

namespace Framework

/-- The UTF-16 code units of a character. -/
def codeUnit (c : Char) : List ℕ :=
  if c.toNat < 0x10000 then [c.toNat]
  else [0xd800 + (c.toNat - 0x10000) / 0x400, 0xdc00 + (c.toNat - 0x10000) % 0x400]

/-- The UTF-16 code units of a text. -/
def codeUnits (l : List Char) : List ℕ := l.flatMap codeUnit

/-- No character is a surrogate, and none lies beyond the last plane. -/
theorem toNat_range (c : Char) : c.toNat < 0xd800 ∨ 0xdfff < c.toNat ∧ c.toNat < 0x110000 :=
  c.valid

theorem eq_of_toNat {c d : Char} (h : c.toNat = d.toNat) : c = d :=
  Char.ext (UInt32.toNat_inj.mp h)

/-- The encoding of a text begins with that of its first character. -/
theorem codeUnits_cons (c : Char) (l : List Char) :
    codeUnits (c :: l) = codeUnit c ++ codeUnits l := List.flatMap_cons

theorem codeUnit_append_inj {c d : Char} {u v : List ℕ}
    (h : codeUnit c ++ u = codeUnit d ++ v) : c = d ∧ u = v := by
  have h_c := toNat_range c
  have h_d := toNat_range d
  unfold codeUnit at h
  split at h
  case isTrue h_plane =>
    split at h
    case isTrue =>
      obtain ⟨h_head, h_tail⟩ := List.cons.inj h
      exact ⟨eq_of_toNat h_head, h_tail⟩
    case isFalse =>
      -- a character of the basic plane against a surrogate
      have h_head := (List.cons.inj h).1
      omega
  case isFalse h_plane =>
    split at h
    case isTrue =>
      have h_head := (List.cons.inj h).1
      omega
    case isFalse =>
      obtain ⟨h_high, h_rest⟩ := List.cons.inj h
      obtain ⟨h_low, h_tail⟩ := List.cons.inj h_rest
      refine ⟨eq_of_toNat ?_, h_tail⟩
      omega

theorem codeUnits_injective {l l' : List Char} (h : codeUnits l = codeUnits l') : l = l' := by
  have h_ne : ∀ c : Char, ∀ u : List ℕ, codeUnit c ++ u ≠ [] := by
    intro c u
    unfold codeUnit
    split <;> simp
  induction l generalizing l' with
  | nil =>
    cases l' with
    | nil => rfl
    | cons d l' =>
      rw [codeUnits_cons] at h
      exact absurd h.symm (h_ne d _)
  | cons c l ih =>
    cases l' with
    | nil =>
      rw [codeUnits_cons] at h
      exact absurd h (h_ne c _)
    | cons d l' =>
      rw [codeUnits_cons, codeUnits_cons] at h
      obtain ⟨rfl, h_tail⟩ := codeUnit_append_inj h
      rw [ih h_tail]

/-- `sort()` of strings. -/
def sortStrings (l : List String) : List String :=
  l.mergeSort fun a b => decide (codeUnits a.toList ≤ codeUnits b.toList)

@[simp] theorem mem_sortStrings {l : List String} {a : String} : a ∈ sortStrings l ↔ a ∈ l :=
  List.mem_mergeSort

theorem sortStrings_sorted (l : List String) :
    (sortStrings l).Pairwise fun a b => codeUnits a.toList ≤ codeUnits b.toList := by
  have h_sorted := List.pairwise_mergeSort
    (fun a b c (h : decide (codeUnits a.toList ≤ codeUnits b.toList) = true)
      (h' : decide (codeUnits b.toList ≤ codeUnits c.toList) = true) =>
      decide_eq_true (le_trans (of_decide_eq_true h) (of_decide_eq_true h')))
    (fun a b => by simpa using le_total (codeUnits a.toList) (codeUnits b.toList)) l
  exact h_sorted.imp fun h => of_decide_eq_true h

/-- **Sorting forgets the order** in which distinct strings come. -/
theorem sortStrings_eq_of_mem_iff {l l' : List String} (h_l : l.Nodup) (h_l' : l'.Nodup)
    (h : ∀ a, a ∈ l ↔ a ∈ l') : sortStrings l = sortStrings l' := by
  have h_perm : (sortStrings l).Perm (sortStrings l') := by
    have h_lists : l.Perm l' := (List.perm_ext_iff_of_nodup h_l h_l').mpr h
    exact ((List.mergeSort_perm l _).trans h_lists).trans (List.mergeSort_perm l' _).symm
  refine h_perm.eq_of_pairwise (fun a b _ _ h_ab h_ba => ?_) (sortStrings_sorted l)
    (sortStrings_sorted l')
  exact String.toList_inj.mp (codeUnits_injective (le_antisymm h_ab h_ba))

end Framework
