import Mathlib.Data.List.Basic

/-!
# UTF-8

`utf8Bytes` are the one to four bytes of a character, `decodeUtf8` is the decoder of a browser: it
reads byte by byte, and reports an error where the bytes are not those of a character and goes on.
`decodeUtf8_utf8` is the round trip. Bytes are natural numbers below 256.
-/

namespace Framework

/-- The bytes of a character. -/
def utf8Bytes (c : Char) : List ℕ :=
  let n := c.toNat
  if n < 0x80 then [n]
  else if n < 0x800 then [0xC0 + n / 64, 0x80 + n % 64]
  else if n < 0x10000 then [0xE0 + n / 4096, 0x80 + n / 64 % 64, 0x80 + n % 64]
  else [0xF0 + n / 262144, 0x80 + n / 4096 % 64, 0x80 + n / 64 % 64, 0x80 + n % 64]

/-- The bytes of a text. -/
def utf8 (text : List Char) : List ℕ := text.flatMap utf8Bytes

/-- A character of which some bytes are missing: how many, what is read of its number, and what
the next byte may be. -/
structure Pending where
  needed : ℕ
  point : ℕ
  lower : ℕ
  upper : ℕ

/-- A byte between characters. `none` is an error. -/
def firstByte (b : ℕ) : List (Option Char) × Option Pending :=
  if b ≤ 0x7F then ([some (Char.ofNat b)], none)
  else if 0xC2 ≤ b ∧ b ≤ 0xDF then ([], some ⟨1, b - 0xC0, 0x80, 0xBF⟩)
  else if 0xE0 ≤ b ∧ b ≤ 0xEF then
    ([], some ⟨2, b - 0xE0, if b = 0xE0 then 0xA0 else 0x80, if b = 0xED then 0x9F else 0xBF⟩)
  else if 0xF0 ≤ b ∧ b ≤ 0xF4 then
    ([], some ⟨3, b - 0xF0, if b = 0xF0 then 0x90 else 0x80, if b = 0xF4 then 0x8F else 0xBF⟩)
  else ([none], none)

/-- A byte after those of `p`. One that does not continue the character is read again. -/
def nextByte (p : Pending) (b : ℕ) : List (Option Char) × Option Pending :=
  if p.lower ≤ b ∧ b ≤ p.upper then
    let point := p.point * 64 + (b - 0x80)
    if p.needed = 1 then ([some (Char.ofNat point)], none)
    else ([], some ⟨p.needed - 1, point, 0x80, 0xBF⟩)
  else (none :: (firstByte b).1, (firstByte b).2)

def decodeFrom : Option Pending → List ℕ → List (Option Char)
  | none, [] => []
  | some _, [] => [none]
  | none, b :: bytes => (firstByte b).1 ++ decodeFrom (firstByte b).2 bytes
  | some p, b :: bytes => (nextByte p b).1 ++ decodeFrom (nextByte p b).2 bytes

/-- Decode bytes, with `none` for an error. -/
def decodeUtf8 (bytes : List ℕ) : List (Option Char) := decodeFrom none bytes

/-- Decode bytes, with replacement characters. -/
def decodeLossy (bytes : List ℕ) : List Char := (decodeUtf8 bytes).map fun c => c.getD '\uFFFD'

/-- Decode bytes without errors, or not at all. -/
def decodeStrict (bytes : List ℕ) : Option (List Char) := (decodeUtf8 bytes).mapM id

/-! ### The round trip -/

theorem utf8Bytes_lt (c : Char) : ∀ b ∈ utf8Bytes c, b < 256 := by
  have h_char : c.toNat < 0x110000 := by
    have h_valid := c.valid
    change c.toNat < 0xd800 ∨ 0xdfff < c.toNat ∧ c.toNat < 0x110000 at h_valid
    omega
  rw [utf8Bytes]
  intro b h_b
  split at h_b
  · rw [List.mem_singleton] at h_b
    omega
  split at h_b
  · simp only [List.mem_cons, List.not_mem_nil, or_false] at h_b
    omega
  split at h_b
  · simp only [List.mem_cons, List.not_mem_nil, or_false] at h_b
    omega
  · simp only [List.mem_cons, List.not_mem_nil, or_false] at h_b
    omega

/-- A byte that continues a character. -/
theorem decodeFrom_next {p : Pending} {b : ℕ} (h : p.lower ≤ b ∧ b ≤ p.upper) (h_more : p.needed ≠ 1)
    (bytes : List ℕ) : decodeFrom (some p) (b :: bytes) =
      decodeFrom (some ⟨p.needed - 1, p.point * 64 + (b - 0x80), 0x80, 0xBF⟩) bytes := by
  simp [decodeFrom, nextByte, h, h_more]

/-- The last byte of a character. -/
theorem decodeFrom_last {p : Pending} {b : ℕ} (h : p.lower ≤ b ∧ b ≤ p.upper) (h_last : p.needed = 1)
    (bytes : List ℕ) : decodeFrom (some p) (b :: bytes) =
      some (Char.ofNat (p.point * 64 + (b - 0x80))) :: decodeUtf8 bytes := by
  simp [decodeFrom, nextByte, h, h_last, decodeUtf8]

/-- **One character** is read back from its bytes. -/
theorem decodeUtf8_char (c : Char) (bytes : List ℕ) :
    decodeUtf8 (utf8Bytes c ++ bytes) = some c :: decodeUtf8 bytes := by
  have h_valid : c.toNat < 0xd800 ∨ 0xdfff < c.toNat ∧ c.toNat < 0x110000 := c.valid
  have h_char : ∀ n, n = c.toNat → some (Char.ofNat n) :: decodeUtf8 bytes =
      some c :: decodeUtf8 bytes := by
    rintro n rfl
    rw [Char.ofNat_toNat]
  rw [utf8Bytes]
  split
  next h_one =>
    have h_first : firstByte c.toNat = ([some (Char.ofNat c.toNat)], none) := if_pos (by omega)
    rw [decodeUtf8, List.cons_append, decodeFrom, h_first]
    exact h_char _ rfl
  split
  next h_one h_two =>
    have h_first : firstByte (0xC0 + c.toNat / 64) = ([], some ⟨1, c.toNat / 64, 0x80, 0xBF⟩) := by
      rw [firstByte, if_neg (by omega), if_pos (by omega), Nat.add_sub_cancel_left]
    rw [decodeUtf8, List.cons_append, decodeFrom, h_first]
    exact (decodeFrom_last (by simp only; omega) rfl bytes).trans (h_char _ (by simp only; omega))
  split
  next h_one h_two h_three =>
    have h_first : ∃ lower upper, firstByte (0xE0 + c.toNat / 4096) =
        ([], some ⟨2, c.toNat / 4096, lower, upper⟩) ∧ lower ≤ 0x80 + c.toNat / 64 % 64 ∧
        0x80 + c.toNat / 64 % 64 ≤ upper := by
      refine ⟨if 0xE0 + c.toNat / 4096 = 0xE0 then 0xA0 else 0x80,
        if 0xE0 + c.toNat / 4096 = 0xED then 0x9F else 0xBF, ?_, ?_⟩
      · rw [firstByte, if_neg (by omega), if_neg (by omega), if_pos (by omega),
          Nat.add_sub_cancel_left]
      · -- overlong forms and surrogates are excluded by the second byte
        constructor
        · split <;> omega
        · split <;> omega
    obtain ⟨lower, upper, h_first, h_lower, h_upper⟩ := h_first
    rw [decodeUtf8, List.cons_append, decodeFrom, h_first]
    refine (decodeFrom_next ⟨h_lower, h_upper⟩ (by simp) _).trans ?_
    exact (decodeFrom_last (by simp only; omega) rfl bytes).trans (h_char _ (by simp only; omega))
  next h_one h_two h_three =>
    have h_first : ∃ lower upper, firstByte (0xF0 + c.toNat / 262144) =
        ([], some ⟨3, c.toNat / 262144, lower, upper⟩) ∧ lower ≤ 0x80 + c.toNat / 4096 % 64 ∧
        0x80 + c.toNat / 4096 % 64 ≤ upper := by
      refine ⟨if 0xF0 + c.toNat / 262144 = 0xF0 then 0x90 else 0x80,
        if 0xF0 + c.toNat / 262144 = 0xF4 then 0x8F else 0xBF, ?_, ?_⟩
      · rw [firstByte, if_neg (by omega), if_neg (by omega), if_neg (by omega), if_pos (by omega),
          Nat.add_sub_cancel_left]
      · constructor
        · split <;> omega
        · split <;> omega
    obtain ⟨lower, upper, h_first, h_lower, h_upper⟩ := h_first
    rw [decodeUtf8, List.cons_append, decodeFrom, h_first]
    refine (decodeFrom_next ⟨h_lower, h_upper⟩ (by simp) _).trans ?_
    refine (decodeFrom_next (by simp only; omega) (by simp) _).trans ?_
    exact (decodeFrom_last (by simp only; omega) rfl bytes).trans (h_char _ (by simp only; omega))

/-- **A text is read back from its bytes.** -/
theorem decodeUtf8_utf8 (text : List Char) : decodeUtf8 (utf8 text) = text.map some := by
  induction text with
  | nil => rfl
  | cons c text ih => rw [utf8, List.flatMap_cons, decodeUtf8_char, ← utf8, ih, List.map_cons]

theorem decodeLossy_utf8 (text : List Char) : decodeLossy (utf8 text) = text := by
  rw [decodeLossy, decodeUtf8_utf8, List.map_map]
  exact List.map_id text

theorem decodeStrict_utf8 (text : List Char) : decodeStrict (utf8 text) = some text := by
  rw [decodeStrict, decodeUtf8_utf8]
  induction text with
  | nil => rfl
  | cons c text ih => simp [ih]

end Framework
