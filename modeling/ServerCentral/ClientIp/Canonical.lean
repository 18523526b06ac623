import ServerCentral.ClientIp.Spellings

/-!
# The canonical text of an address

`format` writes the text that is kept in session records. It stands for the address it was made
from: `parseIp_format`.
-/

open Framework

namespace ServerCentral.ClientIp

open Auth (isSpace dropBlanks_visible)

/-! ### Texts without blanks or brackets -/

/-- A character that `trim` and `unwrap` leave in place. -/
def Kept (c : Char) : Prop := isSpace c = false ∧ c ≠ '[' ∧ c ≠ ']'

instance (c : Char) : Decidable (Kept c) := inferInstanceAs (Decidable (_ ∧ _))

theorem trim_kept {text : Text} (h : ∀ c ∈ text, Kept c) : trim text = text := by
  rw [trim, dropBlanks_visible fun c h_c => (h c h_c).1]

theorem bare_kept {text : Text} (h : ∀ c ∈ text, Kept c) : bare text = text := by
  have h_head : text.head? ≠ some '[' := fun h_eq =>
    (h _ (List.mem_of_head? h_eq)).2.1 rfl
  have h_last : text.getLast? ≠ some ']' := fun h_eq =>
    (h _ (List.mem_of_getLast? h_eq)).2.2 rfl
  rw [bare, trim_kept h, unwrap]
  simp only [if_neg h_head, if_neg h_last]

theorem kept_toDigits {base n : ℕ} (h_base : 1 < base) (h_small : base ≤ 16) :
    ∀ c ∈ Nat.toDigits base n, Kept c := by
  have h_digit : ∀ d < 16, Kept (Nat.digitChar d) := by decide
  exact forall_toDigits h_base fun d h_d => h_digit d (h_d.trans_le h_small)

theorem kept_join {sep : Char} (h_sep : Kept sep) {parts : List Text}
    (h : ∀ part ∈ parts, ∀ c ∈ part, Kept c) : ∀ c ∈ join sep parts, Kept c := by
  intro c h_c
  obtain rfl | ⟨part, h_part, h_c⟩ := mem_join h_c
  · exact h_sep
  · exact h part h_part c h_c

/-! ### IPv4 -/

/-- A byte in decimal. -/
def octetOf (b : UInt8) : Octet where
  text := Nat.toDigits 10 b.toNat
  some := Nat.toDigits_ne_nil
  short := (Nat.length_toDigits_le_iff (by decide) (by decide)).mpr
    (b.toNat_lt.trans (by decide))
  decimal := isDigitOf_toDigits (by decide) (by decide)
  byte := by
    rw [readDigits_toDigits (by decide) (by decide)]
    exact Nat.le_of_lt_succ b.toNat_lt

theorem octetOf_value (b : UInt8) : (octetOf b).value = b := by
  rw [Octet.value, octetOf, readDigits_toDigits (by decide) (by decide)]
  exact UInt8.ofNat_toNat

theorem parseIp_format_four {a : Address} (h : a.bytes.length = 4) :
    parseIp (format a) = some a := by
  obtain ⟨b0, b1, b2, b3, h_bytes⟩ : ∃ b0 b1 b2 b3, a.bytes = [b0, b1, b2, b3] := by
    match h_bytes : a.bytes, h with
    | [b0, b1, b2, b3], _ => exact ⟨b0, b1, b2, b3, rfl⟩
  let q : Quad := ⟨octetOf b0, octetOf b1, octetOf b2, octetOf b3⟩
  have h_format : format a = q.text := by
    rw [format, if_pos h, h_bytes]
    rfl
  have h_text : bare (format a) = (Spelling.dotted q).text := by
    rw [Spelling.text, ← h_format]
    apply bare_kept
    rw [format, if_pos h]
    apply kept_join (by decide)
    intro part h_part
    obtain ⟨b, -, rfl⟩ := List.mem_map.mp h_part
    exact kept_toDigits (by decide) (by decide)
  rw [parseIp_of_read h_text trivial]
  have h_address : (Spelling.dotted q).address = a := by
    apply Address.ext
    simp [Spelling.address, Quad.address, q, octetOf_value, h_bytes]
  rw [h_address]

/-! ### IPv6 -/

/-- Sixteen bits in hexadecimal. -/
def groupOf (n : ℕ) (h : n < 0x10000) : Group where
  text := Nat.toDigits 16 n
  some := Nat.toDigits_ne_nil
  short := (Nat.length_toDigits_le_iff (by decide) (by decide)).mpr h
  hex := isDigitOf_toDigits (by decide) le_rfl

theorem groupOf_value (n : ℕ) (h : n < 0x10000) : (groupOf n h).value = n :=
  readDigits_toDigits (by decide) le_rfl n

/-- Numbers below `2 ^ 16` are written as groups. -/
theorem exists_groups {values : List ℕ} (h : ∀ n ∈ values, n < 0x10000) :
    ∃ gs : List Group, gs.map Group.text = values.map (Nat.toDigits 16) ∧
      gs.map Group.value = values := by
  induction values with
  | nil => exact ⟨[], rfl, rfl⟩
  | cons n values ih =>
    obtain ⟨gs, h_texts, h_values⟩ := ih fun m h_m => h m (List.mem_cons_of_mem _ h_m)
    refine ⟨groupOf n (h n List.mem_cons_self) :: gs, ?_, ?_⟩
    · rw [List.map_cons, h_texts]
      rfl
    · rw [List.map_cons, h_values, groupOf_value]

theorem group_number (high low : UInt8) : high.toNat <<< 8 ||| low.toNat =
    high.toNat * 256 + low.toNat := by
  rw [← Nat.shiftLeft_add_eq_or_of_lt low.toNat_lt, Nat.shiftLeft_eq]

theorem groupsOf_spec {bytes : List UInt8} {n : ℕ} (h : bytes.length = 2 * n) :
    (groupsOf bytes).length = n ∧ (∀ g ∈ groupsOf bytes, g < 0x10000) ∧
      (groupsOf bytes).flatMap (fun g => [UInt8.ofNat (g >>> 8), UInt8.ofNat (g &&& 0xff)]) =
        bytes := by
  induction n generalizing bytes with
  | zero =>
    obtain rfl := List.length_eq_zero_iff.mp h
    exact ⟨rfl, fun _ h_g => absurd h_g List.not_mem_nil, rfl⟩
  | succ n ih =>
    match bytes, h with
    | high :: low :: bytes, h =>
      have h_rest : bytes.length = 2 * n := by
        simp only [List.length_cons] at h
        omega
      obtain ⟨h_length, h_small, h_bytes⟩ := ih h_rest
      have h_high := high.toNat_lt
      have h_low := low.toNat_lt
      obtain ⟨h_first, h_second⟩ := group_bytes high low
      refine ⟨by rw [groupsOf, List.length_cons, h_length], ?_, ?_⟩
      · intro g h_g
        rw [groupsOf, group_number] at h_g
        obtain rfl | h_g := List.mem_cons.mp h_g
        · omega
        · exact h_small g h_g
      · rw [groupsOf, group_number, List.flatMap_cons, h_bytes, h_first, h_second]
        rfl

/-- The groups of a run are all zero. -/
def ZeroRun (groups : List ℕ) (run : Run) : Prop :=
  (groups.drop run.start).take run.length = List.replicate run.length 0

theorem zeroRun_takeWhile (groups : List ℕ) (k : ℕ) :
    ZeroRun groups ⟨k, ((groups.drop k).takeWhile (· = 0)).length⟩ := by
  have h_prefix : (groups.drop k).take ((groups.drop k).takeWhile (· = 0)).length =
      (groups.drop k).takeWhile (· = 0) :=
    (List.prefix_iff_eq_take.mp (List.takeWhile_prefix _)).symm
  rw [ZeroRun, h_prefix, List.eq_replicate_iff]
  refine ⟨rfl, fun g h_g => ?_⟩
  have h_zero := List.mem_takeWhile_imp (p := fun g => decide (g = 0)) h_g
  exact of_decide_eq_true h_zero

theorem zeroRun_longestRun (groups : List ℕ) : ZeroRun groups (longestRun groups) := by
  rw [longestRun]
  generalize List.range 8 = indices
  suffices h : ∀ st : ℕ × Run, ZeroRun groups st.2 →
      ZeroRun groups (indices.foldl (runStep groups) st).2 from h _ rfl
  induction indices with
  | nil => exact fun st h_st => h_st
  | cons k indices ih =>
    rintro ⟨i, best⟩ h_st
    apply ih
    rw [runStep]
    split
    · exact h_st
    · dsimp only
      split
      · exact h_st
      · split
        · exact zeroRun_takeWhile groups k
        · exact h_st

theorem ZeroRun.room {groups : List ℕ} {run : Run} (h : ZeroRun groups run) (h_some : 0 < run.length) :
    run.start + run.length ≤ groups.length := by
  have h_length := congrArg List.length h
  rw [List.length_take, List.length_drop, List.length_replicate] at h_length
  omega

/-- A run of zeros left out. -/
theorem ZeroRun.elided {groups : List ℕ} {run : Run} (h : ZeroRun groups run) :
    groups.take run.start ++ List.replicate run.length 0 ++ groups.drop (run.start + run.length) =
      groups := by
  rw [← h, ← List.drop_drop, List.append_assoc, List.take_append_drop, List.take_append_drop]

theorem ofGroups_groupsOf {a : Address} {values : List ℕ} (h_values : values = groupsOf a.bytes)
    (h : a.bytes.length = 16) (h_eight : values.length = 8) : Address.ofGroups values h_eight = a := by
  obtain ⟨-, -, h_bytes⟩ := groupsOf_spec (n := 8) h
  subst h_values
  exact Address.ext h_bytes

theorem parseIp_format_sixteen {a : Address} (h : a.bytes.length = 16) :
    parseIp (format a) = some a := by
  obtain ⟨h_eight, h_small, -⟩ := groupsOf_spec (n := 8) h
  obtain ⟨gs, h_texts, h_values⟩ := exists_groups h_small
  have h_count : gs.length = 8 := by
    rw [← h_eight, ← h_values, List.length_map]
  have h_kept : ∀ part ∈ (groupsOf a.bytes).map (Nat.toDigits 16), ∀ c ∈ part, Kept c := by
    intro part h_part
    obtain ⟨g, -, rfl⟩ := List.mem_map.mp h_part
    exact kept_toDigits (by decide) le_rfl
  have h_four : ¬a.bytes.length = 4 := by omega
  rw [format, if_neg h_four]
  dsimp only
  have h_zero := zeroRun_longestRun (groupsOf a.bytes)
  generalize longestRun (groupsOf a.bytes) = best at h_zero
  split
  · -- No run is left out.
    have h_full : (Parts.values ⟨gs, none⟩).length = 8 := by
      rw [values_of_tail rfl, List.length_map, h_count]
    have h_text : bare (join ':' ((groupsOf a.bytes).map (Nat.toDigits 16))) =
        (Spelling.full ⟨gs, none⟩ h_full).text := by
      rw [bare_kept (kept_join (by decide) h_kept), Spelling.text, texts_of_tail rfl, h_texts]
    have h_numbers : Parts.values ⟨gs, none⟩ = groupsOf a.bytes := (values_of_tail rfl).trans h_values
    rw [parseIp_full h_text rfl, ofGroups_groupsOf h_numbers h]
  · next h_long =>
    have h_room := h_zero.room (by omega)
    rw [h_eight] at h_room
    let before := gs.take best.start
    let after : Parts := ⟨gs.drop (best.start + best.length), none⟩
    have h_after : after.values = (groupsOf a.bytes).drop (best.start + best.length) := by
      rw [values_of_tail rfl, ← h_values, ← List.map_drop]
    have h_before : before.map Group.value = (groupsOf a.bytes).take best.start := by
      rw [← h_values, ← List.map_take]
    have h_length : before.length = best.start := by
      rw [List.length_take, h_count]
      omega
    have h_rest : after.values.length = 8 - (best.start + best.length) := by
      rw [h_after, List.length_drop, h_eight]
    have h_fit : before.length + after.values.length < 8 := by omega
    have h_numbers : elidedValues before after = groupsOf a.bytes := by
      have h_zeros : 8 - before.length - after.values.length = best.length := by omega
      rw [elidedValues, h_zeros, h_before, h_after, h_zero.elided]
    have h_text : bare (join ':' (((groupsOf a.bytes).map (Nat.toDigits 16)).take best.start) ++
        "::".toList ++ join ':' (((groupsOf a.bytes).map (Nat.toDigits 16)).drop
          (best.start + best.length))) = (Spelling.elided before after h_fit).text := by
      have h_half : ∀ half : List Text, half ⊆ (groupsOf a.bytes).map (Nat.toDigits 16) →
          ∀ c ∈ join ':' half, Kept c := fun half h_sub =>
        kept_join (by decide) fun part h_part => h_kept part (h_sub h_part)
      rw [bare_kept]
      · rw [Spelling.text, texts_of_tail rfl, ← h_texts, ← List.map_take, ← List.map_drop,
          List.append_assoc]
        rfl
      · intro c h_c
        rw [List.mem_append, List.mem_append] at h_c
        obtain (h_c | h_c) | h_c := h_c
        · exact h_half _ (List.take_subset _ _) c h_c
        · obtain rfl : c = ':' := by simpa using h_c
          decide
        · exact h_half _ (List.drop_subset _ _) c h_c
    rw [parseIp_elided h_text rfl, ofGroups_groupsOf h_numbers h]

/-- **The canonical text** of an address is read as it. -/
theorem parseIp_format (a : Address) : parseIp (format a) = some a := by
  obtain h | h := a.family
  · exact parseIp_format_four h
  · exact parseIp_format_sixteen h

end ServerCentral.ClientIp
