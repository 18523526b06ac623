import Mathlib.Data.List.DropRight
import Mathlib.Data.List.TakeWhile
import Mathlib.Data.Rat.Floor
import Mathlib.Tactic.Linarith
import Mathlib.Tactic.Positivity
import Mathlib.Tactic.Ring
import ServerCentral.Framework.Digits

/-!
# Double-precision numbers, read from and written to text

A finite double is the rational it stands for; the sign of zero is left out. `nearest` rounds a
rational to a double, ties to even, and `numeral` reads a numeric literal: decimal with a sign,
a fraction and an exponent, or hexadecimal, octal and binary behind their prefix.

Small integers are doubles (`nearest_intCast`), so plain digits are read exactly
(`numeral_digits`). `wholeText` writes a whole number with the fewest digits that are read as it.
-/

namespace Framework

/-! ### Rounding -/

/-- The nearest integer, ties to even. -/
def roundEven (q : ℚ) : ℤ :=
  let below := ⌊q⌋
  if q - below < 1 / 2 then below
  else if 1 / 2 < q - below then below + 1
  else if below % 2 = 0 then below else below + 1

@[simp] theorem roundEven_intCast (n : ℤ) : roundEven n = n := by
  rw [roundEven, Int.floor_intCast, sub_self, if_pos (by norm_num)]

/-- A number as programs in the language of the source have it. -/
inductive Number where
  | nan
  | infinite (negative : Bool)
  | finite (value : ℚ)
  deriving DecidableEq, Repr

/-- The greatest `k` with `2 ^ k ≤ q`, for `q` above zero. -/
def binaryLog (q : ℚ) : ℤ :=
  if 1 ≤ q then Nat.log2 ⌊q⌋₊ else -(Nat.log2 (⌈q⁻¹⌉₊ - 1) + 1)

/-- The unit in the last place for numbers of the size of `q`, as a power of two. -/
def ulpExponent (q : ℚ) : ℤ := max (binaryLog |q| - 52) (-1074)

/-- The double nearest to a rational. -/
def nearest (q : ℚ) : Number :=
  let value := roundEven (q / 2 ^ ulpExponent q) * (2 : ℚ) ^ ulpExponent q
  if 2 ^ 1024 ≤ |value| then .infinite (q < 0) else .finite value

theorem ulpExponent_nonpos {n : ℤ} (h : |n| < 2 ^ 53) : ulpExponent n ≤ 0 := by
  refine max_le ?_ (by norm_num)
  have h_abs : |(n : ℚ)| = (n.natAbs : ℚ) := by
    rw [Nat.cast_natAbs, Int.cast_abs]
  rw [h_abs, binaryLog]
  split
  · rw [Nat.floor_natCast]
    have h_lt : n.natAbs < 2 ^ 53 := by
      rw [← Int.natCast_natAbs] at h
      omega
    by_cases h_zero : n.natAbs = 0
    · rw [h_zero]
      decide
    · have h_log := (Nat.log2_lt h_zero).mpr h_lt
      omega
  · omega

/-- **Integers below `2 ^ 53`** are doubles. -/
theorem nearest_intCast {n : ℤ} (h : |n| < 2 ^ 53) : nearest n = .finite n := by
  obtain ⟨k, h_k⟩ : ∃ k : ℕ, ulpExponent n = -(k : ℤ) :=
    ⟨(-ulpExponent n).toNat, by have := ulpExponent_nonpos h; omega⟩
  have h_scaled : (n : ℚ) / 2 ^ ulpExponent n = ((n * 2 ^ k : ℤ) : ℚ) := by
    rw [h_k, zpow_neg, zpow_natCast, div_inv_eq_mul]
    push_cast
    rfl
  have h_value : (roundEven ((n : ℚ) / 2 ^ ulpExponent n) : ℚ) * 2 ^ ulpExponent n = n := by
    rw [h_scaled, roundEven_intCast, h_k, zpow_neg, zpow_natCast]
    push_cast
    rw [mul_assoc, mul_inv_cancel₀ (by positivity), mul_one]
  have h_small : ¬(2 : ℚ) ^ 1024 ≤ |(n : ℚ)| := by
    have h_cast : ((|n| : ℤ) : ℚ) < ((2 ^ 53 : ℤ) : ℚ) := Int.cast_lt.mpr h
    rw [Int.cast_abs] at h_cast
    have h_pow : (2 : ℚ) ^ 53 ≤ 2 ^ 1024 := pow_le_pow_right₀ (by norm_num) (by norm_num)
    push_cast at h_cast
    exact not_le.mpr (h_cast.trans_le h_pow)
  rw [nearest]
  simp only [h_value]
  rw [if_neg h_small]

namespace Number

/-- `Number.isInteger` -/
def isInteger : Number → Bool
  | finite value => value.den = 1
  | _ => false

/-- The whole number a number is, where it is one. -/
def whole : Number → Option ℤ
  | finite value => if value.den = 1 then some value.num else none
  | _ => none

theorem whole_intCast (n : ℤ) : (finite n).whole = some n := by
  simp [whole]

theorem whole_eq_some {x : Number} {n : ℤ} : x.whole = some n ↔ x = finite n := by
  constructor
  · intro h
    cases x with
    | nan => cases h
    | infinite negative => cases h
    | finite value =>
      rw [whole] at h
      split at h
      · next h_den =>
        obtain rfl := Option.some.inj h
        rw [(Rat.den_eq_one_iff value).mp h_den]
      · cases h
  · rintro rfl
    exact whole_intCast n

end Number

/-! ### Digits -/

/-- The value of a letter or digit, from `0` to `35`; more for anything else. -/
def digitValue (c : Char) : ℕ :=
  if '0' ≤ c ∧ c ≤ '9' then c.toNat - '0'.toNat
  else if 'a' ≤ c ∧ c ≤ 'z' then c.toNat - 'a'.toNat + 10
  else if 'A' ≤ c ∧ c ≤ 'Z' then c.toNat - 'A'.toNat + 10
  else 36

def isDigitOf (base : ℕ) (c : Char) : Bool := digitValue c < base

/-- The number some digits stand for. -/
def readDigits (base : ℕ) (digits : List Char) : ℕ :=
  digits.foldl (fun value c => value * base + digitValue c) 0

theorem foldl_digits_lt {base : ℕ} {digits : List Char}
    (h : ∀ c ∈ digits, isDigitOf base c = true) (value : ℕ) :
    digits.foldl (fun value c => value * base + digitValue c) value <
      (value + 1) * base ^ digits.length := by
  induction digits generalizing value with
  | nil => simp
  | cons c digits ih =>
    have h_c : digitValue c < base := of_decide_eq_true (h c List.mem_cons_self)
    have h_rest := ih (fun d h_d => h d (List.mem_cons_of_mem _ h_d)) (value * base + digitValue c)
    have h_step : value * base + digitValue c + 1 ≤ (value + 1) * base := by
      rw [Nat.succ_mul]
      omega
    calc (c :: digits).foldl (fun value c => value * base + digitValue c) value
        = digits.foldl (fun value c => value * base + digitValue c)
            (value * base + digitValue c) := rfl
      _ < (value * base + digitValue c + 1) * base ^ digits.length := h_rest
      _ ≤ (value + 1) * base * base ^ digits.length := Nat.mul_le_mul_right _ h_step
      _ = (value + 1) * base ^ (c :: digits).length := by
        rw [List.length_cons, pow_succ, mul_assoc, mul_comm base]

theorem readDigits_lt {base : ℕ} {digits : List Char}
    (h : ∀ c ∈ digits, isDigitOf base c = true) : readDigits base digits < base ^ digits.length := by
  have h_lt := foldl_digits_lt h 0
  rwa [zero_add, one_mul] at h_lt

theorem digitValue_digitChar {d : ℕ} (h : d < 16) : digitValue (Nat.digitChar d) = d := by
  revert d
  decide

theorem isDigitOf_toDigits {base n : ℕ} (h_base : 1 < base) (h_small : base ≤ 16) :
    ∀ c ∈ Nat.toDigits base n, isDigitOf base c = true := by
  have h_digit : ∀ d < base, isDigitOf base (Nat.digitChar d) = true := by
    intro d h_d
    rw [isDigitOf, digitValue_digitChar (h_d.trans_le h_small)]
    exact decide_eq_true h_d
  exact forall_toDigits h_base h_digit

/-- **Written digits** are read back. -/
theorem readDigits_toDigits {base : ℕ} (h_base : 1 < base) (h_small : base ≤ 16) (n : ℕ) :
    readDigits base (Nat.toDigits base n) = n := by
  induction n using Nat.strong_induction_on with
  | _ n ih =>
    rw [Nat.toDigits_eq_if h_base]
    split
    · next h_lt =>
      simp [readDigits, digitValue_digitChar (h_lt.trans_le h_small)]
    · next h_ge =>
      have h_mod := Nat.mod_lt n (Nat.lt_of_succ_lt h_base)
      have h_ih : readDigits base (Nat.toDigits base (n / base)) = n / base :=
        ih (n / base) (Nat.div_lt_self (by omega) h_base)
      rw [readDigits, List.foldl_append, ← readDigits, h_ih]
      simp only [List.foldl_cons, List.foldl_nil, digitValue_digitChar (h_mod.trans_le h_small)]
      exact Nat.div_add_mod' n base

/-! ### Numeric literals -/

/-- A sign or none, and what follows it. -/
def splitSign : List Char → ℤ × List Char
  | '-' :: text => (-1, text)
  | '+' :: text => (1, text)
  | text => (1, text)

/-- An exponent: nothing, or a letter, a sign or none, and digits. -/
def exponentPart : List Char → Option ℤ
  | [] => some 0
  | c :: text =>
    if c ≠ 'e' ∧ c ≠ 'E' then none
    else
      let (sign, digits) := splitSign text
      if digits ≠ [] ∧ digits.all (isDigitOf 10) then some (sign * readDigits 10 digits) else none

/-- The digits behind a point, where there is one, and what follows them. -/
def splitFraction : List Char → List Char × List Char
  | '.' :: rest => (rest.takeWhile (isDigitOf 10), rest.dropWhile (isDigitOf 10))
  | rest => ([], rest)

/-- A decimal literal without a sign: digits, perhaps a point and more of them, an exponent. -/
def unsignedDecimal (text : List Char) : Option ℚ :=
  let whole := text.takeWhile (isDigitOf 10)
  let rest := text.dropWhile (isDigitOf 10)
  let (fraction, rest) := splitFraction rest
  if whole = [] ∧ fraction = [] then none
  else (exponentPart rest).map fun exponent =>
    readDigits 10 (whole ++ fraction) * (10 : ℚ) ^ (exponent - (fraction.length : ℤ))

/-- Digits behind a prefix. -/
def radixLiteral (base : ℕ) (digits : List Char) : Number :=
  if digits ≠ [] ∧ digits.all (isDigitOf base) then nearest (readDigits base digits) else .nan

/-- A decimal literal or `Infinity` behind a sign. -/
def signedDecimal (negative : Bool) (text : List Char) : Number :=
  if text = "Infinity".toList then .infinite negative
  else match unsignedDecimal text with
    | none => .nan
    | some value => nearest (if negative then -value else value)

/-- What a numeric literal stands for; `nan` for a text that is none. -/
def numeral : List Char → Number
  | '0' :: 'x' :: digits | '0' :: 'X' :: digits => radixLiteral 16 digits
  | '0' :: 'o' :: digits | '0' :: 'O' :: digits => radixLiteral 8 digits
  | '0' :: 'b' :: digits | '0' :: 'B' :: digits => radixLiteral 2 digits
  | '+' :: text => signedDecimal false text
  | '-' :: text => signedDecimal true text
  | text => signedDecimal false text

theorem takeWhile_digits {digits : List Char} (h : ∀ c ∈ digits, isDigitOf 10 c = true) :
    digits.takeWhile (isDigitOf 10) = digits ∧ digits.dropWhile (isDigitOf 10) = [] :=
  ⟨List.takeWhile_eq_self_iff.mpr h, List.dropWhile_eq_nil_iff.mpr h⟩

theorem signedDecimal_digits {digits : List Char} (h_some : digits ≠ [])
    (h : ∀ c ∈ digits, isDigitOf 10 c = true) (h_length : digits.length ≤ 15) :
    signedDecimal false digits = .finite (readDigits 10 digits) := by
  have h_word : digits ≠ "Infinity".toList := by
    rintro rfl
    exact absurd (h 'I' (by decide)) (by decide)
  obtain ⟨h_take, h_drop⟩ := takeWhile_digits h
  have h_value : unsignedDecimal digits = some (readDigits 10 digits : ℚ) := by
    rw [unsignedDecimal, h_take, h_drop]
    simp [h_some, splitFraction, exponentPart]
  have h_small : |((readDigits 10 digits : ℕ) : ℤ)| < 2 ^ 53 := by
    have h_lt := readDigits_lt h
    have h_pow : (10 : ℕ) ^ digits.length ≤ 10 ^ 15 := Nat.pow_le_pow_right (by decide) h_length
    have h_bound : (10 : ℕ) ^ 15 < 2 ^ 53 := by decide
    rw [Nat.abs_cast]
    exact_mod_cast (h_lt.trans_le h_pow).trans h_bound
  rw [signedDecimal, if_neg h_word, h_value]
  exact_mod_cast nearest_intCast h_small

/-- **Plain digits** are read exactly. -/
theorem numeral_digits {digits : List Char} (h_some : digits ≠ [])
    (h : ∀ c ∈ digits, isDigitOf 10 c = true) (h_length : digits.length ≤ 15) :
    numeral digits = .finite (readDigits 10 digits) := by
  rw [← signedDecimal_digits h_some h h_length]
  unfold numeral
  -- A prefix or a sign is a character that is no digit, in the second place or in the first.
  split
  all_goals first
    | rfl
    | exact absurd (h _ (List.mem_cons_of_mem _ List.mem_cons_self)) (by decide)
    | exact absurd (h _ List.mem_cons_self) (by decide)

example : numeral "1.5e1".toList = .finite 15 := by decide +kernel
example : numeral "0x20".toList = .finite 32 := by decide +kernel
example : numeral "7.99999999999999999999".toList = .finite 8 := by decide +kernel

/-! ### Writing whole numbers -/

/-- The fewest digits that are read as `n`, and how many zeros stand behind them. -/
def fewestDigits (n : ℕ) : ℕ × ℕ :=
  let length := (Nat.toDigits 10 n).length
  ((List.range length).findSome? fun i =>
    let zeros := length - 1 - i
    let digits := (roundEven (n / 10 ^ zeros)).toNat
    if nearest (digits * 10 ^ zeros : ℕ) = nearest n then some (digits, zeros) else none).getD (n, 0)

/-- `String(n)` of a whole number that is a double. -/
def wholeText (n : ℤ) : List Char :=
  let (digits, zeros) := fewestDigits n.natAbs
  let text := Nat.toDigits 10 digits ++ List.replicate zeros '0'
  (if n < 0 then ['-'] else []) ++
    if n.natAbs < 10 ^ 21 then text
    else
      let exponent := text.length - 1
      let text := text.rdropWhile (· = '0')
      text.take 1 ++ (if text.length = 1 then [] else '.' :: text.drop 1) ++ ['e', '+'] ++
        Nat.toDigits 10 exponent

/-- `String(Math.floor(x))` -/
def floorText : Number → List Char
  | .nan => "NaN".toList
  | .infinite false => "Infinity".toList
  | .infinite true => "-Infinity".toList
  | .finite value => wholeText ⌊value⌋

/-- The `n` with `10 ^ (n - 1) ≤ q < 10 ^ n`, for `q` above zero. -/
def decimalSize (q : ℚ) : ℤ :=
  if 1 ≤ q then (Nat.toDigits 10 ⌊q⌋₊).length else 1 - (Nat.toDigits 10 (⌈q⁻¹⌉₊ - 1)).length

/-- The fewest digits that are read as `q`, and where the point stands behind the first of
them. -/
def shortestDigits (q : ℚ) : List Char × ℤ :=
  ((List.range 17).findSome? fun i =>
    let unit := decimalSize q - (i + 1)
    let digits := (roundEven (q / 10 ^ unit)).toNat
    let text := Nat.toDigits 10 digits
    if nearest (digits * 10 ^ unit) = .finite q then
      some (text.rdropWhile (· = '0'), unit + text.length)
    else none).getD ([], 0)

/-- `String(x)` of a fraction above zero. -/
def fractionText (q : ℚ) : List Char :=
  let (digits, point) := shortestDigits q
  if 0 < point then digits.take point.toNat ++ '.' :: digits.drop point.toNat
  else if -6 < point then ['0', '.'] ++ List.replicate (-point).toNat '0' ++ digits
  else digits.take 1 ++ (if digits.length = 1 then [] else '.' :: digits.drop 1) ++ ['e', '-'] ++
    Nat.toDigits 10 (1 - point).toNat

/-- `String(x)` of a number that is a double. -/
def numberText : Number → List Char
  | .nan => "NaN".toList
  | .infinite false => "Infinity".toList
  | .infinite true => "-Infinity".toList
  | .finite value =>
    if value.den = 1 then wholeText value.num
    else (if value < 0 then ['-'] else []) ++ fractionText |value|

theorem numberText_finite (value : ℚ) : numberText (.finite value) =
    if value.den = 1 then wholeText value.num
    else (if value < 0 then ['-'] else []) ++ fractionText |value| := rfl

theorem numberText_intCast (n : ℤ) : numberText (.finite n) = wholeText n := by
  rw [numberText_finite, Rat.num_intCast, if_pos (Rat.den_intCast n)]

/-- The text of a whole number is plain digits. -/
theorem all_digits_wholeText {n : ℤ} :
    (wholeText n).all (isDigitOf 10) = true ↔ 0 ≤ n ∧ n < 10 ^ 21 := by
  rw [wholeText, List.all_append, Bool.and_eq_true]
  by_cases h_sign : n < 0
  · have h_minus : (['-'] : List Char).all (isDigitOf 10) = false := by decide
    rw [if_pos h_sign, h_minus]
    simp only [Bool.false_eq_true, false_and, false_iff]
    omega
  · rw [if_neg h_sign]
    have h_nonneg : 0 ≤ n := Int.not_lt.mp h_sign
    by_cases h_large : n.natAbs < 10 ^ 21
    · have h_text : ∀ digits zeros : ℕ, (Nat.toDigits 10 digits ++ List.replicate zeros '0').all
          (isDigitOf 10) = true := by
        intro digits zeros
        rw [List.all_append, Bool.and_eq_true, List.all_eq_true, List.all_eq_true]
        refine ⟨isDigitOf_toDigits (by decide) (by decide), fun c h_c => ?_⟩
        rw [List.eq_of_mem_replicate h_c]
        rfl
      rw [if_pos h_large, h_text]
      simp only [List.all_nil, true_and, true_iff]
      omega
    · rw [if_neg h_large]
      have h_letter : isDigitOf 10 'e' = false := by decide
      simp only [List.all_append, List.all_cons, h_letter, Bool.false_and, Bool.and_false,
        Bool.false_eq_true, and_false, false_iff]
      omega

theorem wholeText_ne_nil (n : ℤ) : wholeText n ≠ [] := by
  rw [wholeText]
  apply List.append_ne_nil_of_right_ne_nil
  split
  · exact List.append_ne_nil_of_left_ne_nil Nat.toDigits_ne_nil _
  · exact List.append_ne_nil_of_right_ne_nil _ Nat.toDigits_ne_nil

theorem mem_wholeText {n : ℤ} {c : Char} (h : c ∈ wholeText n) :
    isDigitOf 10 c = true ∨ c ∈ ['-', '.', 'e', '+'] := by
  have h_digit : ∀ k : ℕ, ∀ c ∈ Nat.toDigits 10 k, isDigitOf 10 c = true := fun k =>
    isDigitOf_toDigits (by decide) (by decide)
  have h_text : ∀ digits zeros : ℕ, ∀ c ∈ Nat.toDigits 10 digits ++ List.replicate zeros '0',
      isDigitOf 10 c = true := by
    intro digits zeros c h_c
    obtain h_c | h_c := List.mem_append.mp h_c
    · exact h_digit digits c h_c
    · rw [List.eq_of_mem_replicate h_c]
      rfl
  rw [wholeText] at h
  generalize fewestDigits n.natAbs = parts at h
  obtain ⟨digits, zeros⟩ := parts
  dsimp only at h
  obtain h | h := List.mem_append.mp h
  · split at h
    · obtain rfl := List.mem_singleton.mp h
      exact .inr (by decide)
    · cases h
  · split at h
    · exact .inl (h_text digits zeros c h)
    · have h_sub : ∀ c ∈ (Nat.toDigits 10 digits ++ List.replicate zeros '0').rdropWhile (· = '0'),
          isDigitOf 10 c = true := fun c h_c =>
        h_text digits zeros c ((List.rdropWhile_prefix _ _).subset h_c)
      rw [List.append_assoc, List.append_assoc, List.mem_append, List.mem_append,
        List.mem_append] at h
      obtain h | h | h | h := h
      · exact .inl (h_sub c (List.mem_of_mem_take h))
      · split at h
        · cases h
        · obtain rfl | h := List.mem_cons.mp h
          · exact .inr (by decide)
          · exact .inl (h_sub c (List.mem_of_mem_drop h))
      · refine .inr ?_
        obtain rfl | rfl : c = 'e' ∨ c = '+' := by simpa using h
        · decide
        · decide
      · exact .inl (h_digit _ c h)

theorem fractionText_ne_nil (q : ℚ) : fractionText q ≠ [] := by
  rw [fractionText]
  generalize shortestDigits q = parts
  obtain ⟨digits, point⟩ := parts
  dsimp only
  split
  · exact List.append_ne_nil_of_right_ne_nil _ (List.cons_ne_nil _ _)
  · split
    · exact List.append_ne_nil_of_left_ne_nil (List.cons_ne_nil _ _) _
    · exact List.append_ne_nil_of_right_ne_nil _ Nat.toDigits_ne_nil

theorem numberText_ne_nil (x : Number) : numberText x ≠ [] := by
  cases x with
  | nan => decide
  | infinite negative => cases negative <;> decide
  | finite value =>
    rw [numberText_finite]
    split
    · exact wholeText_ne_nil _
    · exact List.append_ne_nil_of_right_ne_nil _ (fractionText_ne_nil _)

/-- A number whose floor is written with digits alone. -/
def Countable (x : Number) : Prop := ∃ value, x = .finite value ∧ 0 ≤ ⌊value⌋ ∧ ⌊value⌋ < 10 ^ 21

theorem countable_finite {value : ℚ} :
    Countable (.finite value) ↔ 0 ≤ ⌊value⌋ ∧ ⌊value⌋ < 10 ^ 21 := by
  constructor
  · rintro ⟨value', h_eq, h⟩
    rw [Number.finite.inj h_eq]
    exact h
  · intro h
    exact ⟨value, rfl, h⟩

theorem all_digits_floorText {x : Number} :
    (floorText x).all (isDigitOf 10) = true ↔ Countable x := by
  cases x with
  | nan => exact iff_of_false (by decide) nofun
  | infinite negative => cases negative <;> exact iff_of_false (by decide) nofun
  | finite value =>
    rw [countable_finite]
    exact all_digits_wholeText

theorem floorText_ne_nil (x : Number) : floorText x ≠ [] := by
  cases x with
  | nan => decide
  | infinite negative => cases negative <;> decide
  | finite value => exact wholeText_ne_nil _

example : floorText (.finite (2 ^ 60)) = "1152921504606847000".toList := by decide +kernel
example : floorText (.finite (10 ^ 23 - 8388608)) = "1e+23".toList := by decide +kernel
example : numberText (nearest (1 / 10)) = "0.1".toList := by decide +kernel
example : numberText (nearest (-123456 / 1000)) = "-123.456".toList := by decide +kernel
example : numberText (nearest (1 / 1000000)) = "0.000001".toList := by decide +kernel
example : numberText (nearest (25 / 100000000)) = "2.5e-7".toList := by decide +kernel

end Framework
