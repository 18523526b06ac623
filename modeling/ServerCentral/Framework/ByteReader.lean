import Mathlib.Data.List.Basic

/-!
# Reading numbers from bytes

The reads of a `DataView`, most significant byte first. A read that does not lie inside of the
bytes is an error; `drop` gives the bytes a read begins at, and each read has one lemma about
them.
-/

namespace Framework

/-- A read past the end. -/
inductive RangeError where
  | outside
  deriving DecidableEq, Repr

def getUint8 (view : List UInt8) (offset : ℕ) : Except RangeError ℕ :=
  match view[offset]? with
  | some b => .ok b.toNat
  | none => .error .outside

def getUint16 (view : List UInt8) (offset : ℕ) : Except RangeError ℕ :=
  (getUint8 view offset).bind fun high =>
  (getUint8 view (offset + 1)).bind fun low => .ok (high * 256 + low)

def getUint32 (view : List UInt8) (offset : ℕ) : Except RangeError ℕ :=
  (getUint16 view offset).bind fun high =>
  (getUint16 view (offset + 2)).bind fun low => .ok (high * 65536 + low)

section Reads

variable {view rest : List UInt8} {offset : ℕ} {a b c d : UInt8}

theorem drop_next (h : view.drop offset = a :: rest) : view.drop (offset + 1) = rest := by
  rw [← List.drop_drop, h]
  rfl

theorem getUint8_eq (h : view.drop offset = a :: rest) : getUint8 view offset = .ok a.toNat := by
  have h_get : view[offset]? = some a := by
    rw [← List.head?_drop, h]
    rfl
  rw [getUint8, h_get]

theorem getUint16_eq (h : view.drop offset = a :: b :: rest) :
    getUint16 view offset = .ok (a.toNat * 256 + b.toNat) := by
  rw [getUint16, getUint8_eq h, getUint8_eq (drop_next h)]
  rfl

theorem getUint32_eq (h : view.drop offset = a :: b :: c :: d :: rest) :
    getUint32 view offset =
      .ok ((a.toNat * 256 + b.toNat) * 65536 + (c.toNat * 256 + d.toNat)) := by
  have h_low : view.drop (offset + 2) = c :: d :: rest := drop_next (drop_next h)
  rw [getUint32, getUint16_eq h, getUint16_eq h_low]
  rfl

/-- Where `n` bytes are left, a read of `n` bytes finds them. -/
theorem exists_drop_four (h : offset + 4 ≤ view.length) :
    ∃ a b c d rest, view.drop offset = a :: b :: c :: d :: rest := by
  have h_length : 4 ≤ (view.drop offset).length := by
    rw [List.length_drop]
    omega
  rcases h_view : view.drop offset with _ | ⟨a, _ | ⟨b, _ | ⟨c, _ | ⟨d, rest⟩⟩⟩⟩
  · rw [h_view] at h_length
    exact absurd h_length (by decide)
  · rw [h_view] at h_length
    exact absurd h_length (by simp)
  · rw [h_view] at h_length
    exact absurd h_length (by simp)
  · rw [h_view] at h_length
    exact absurd h_length (by simp)
  · exact ⟨a, b, c, d, rest, rfl⟩

end Reads

/-- The two bytes of a number. -/
theorem number_of_bytes {n : ℕ} (h : n < 65536) :
    (UInt8.ofNat (n / 256)).toNat * 256 + (UInt8.ofNat (n % 256)).toNat = n := by
  rw [UInt8.toNat_ofNat', UInt8.toNat_ofNat']
  omega

/-- One byte of a number of four. -/
theorem byte_of_four (a b c d : UInt8) :
    [24, 16, 8, 0].map (fun shift =>
      ((a.toNat * 256 + b.toNat) * 65536 + (c.toNat * 256 + d.toNat)) >>> shift &&& 0xff) =
      [a.toNat, b.toNat, c.toNat, d.toNat] := by
  have h_a := a.toNat_lt
  have h_b := b.toNat_lt
  have h_c := c.toNat_lt
  have h_d := d.toNat_lt
  have h_and : ∀ n : ℕ, n &&& 0xff = n % 256 := fun n => Nat.and_two_pow_sub_one_eq_mod n 8
  simp only [List.map_cons, List.map_nil, h_and, Nat.shiftRight_eq_div_pow]
  congr 1
  · omega
  congr 1
  · omega
  congr 1
  · omega
  congr 1
  omega

/-- The bytes of an exclusive or. -/
theorem bytes_xor (n m : ℕ) :
    [24, 16, 8, 0].map (fun shift => (n ^^^ m) >>> shift &&& 0xff) =
      List.zipWith (· ^^^ ·) ([24, 16, 8, 0].map fun shift => n >>> shift &&& 0xff)
        ([24, 16, 8, 0].map fun shift => m >>> shift &&& 0xff) := by
  simp only [List.map_cons, List.map_nil, List.zipWith_cons_cons, List.zipWith_nil_left,
    Nat.shiftRight_xor_distrib, Nat.and_xor_distrib_right]

end Framework
