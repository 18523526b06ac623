import ServerCentral.Framework.Doubles

/-!
# The grammar of numeric literals

`Literal text value` says that a text is a numeric literal and which rational is written in it,
before any rounding. `numeral_eq_finite` says that `numeral` reads exactly the literals, each as
the double nearest to its value.
-/

namespace Framework

/-! ### The grammar -/

inductive SignText : List Char → ℤ → Prop
  | absent : SignText [] 1
  | plus : SignText ['+'] 1
  | minus : SignText ['-'] (-1)

/-- Digits of a base, at least one of them. -/
structure Digits (base : ℕ) (text : List Char) : Prop where
  some : text ≠ []
  digit : ∀ c ∈ text, isDigitOf base c = true

inductive ExponentText : List Char → ℤ → Prop
  | absent : ExponentText [] 0
  | written {letter : Char} {sign digits : List Char} {s : ℤ} (h_letter : letter = 'e' ∨ letter = 'E')
      (h_sign : SignText sign s) (h_digits : Digits 10 digits) :
      ExponentText (letter :: (sign ++ digits)) (s * readDigits 10 digits)

inductive DecimalText : List Char → ℚ → Prop
  | whole {whole exponent : List Char} {k : ℤ} (h_whole : Digits 10 whole)
      (h_exponent : ExponentText exponent k) :
      DecimalText (whole ++ exponent) (readDigits 10 whole * (10 : ℚ) ^ k)
  | pointed {whole fraction exponent : List Char} {k : ℤ} (h_digits : Digits 10 (whole ++ fraction))
      (h_exponent : ExponentText exponent k) :
      DecimalText (whole ++ '.' :: (fraction ++ exponent))
        (readDigits 10 (whole ++ fraction) * (10 : ℚ) ^ (k - fraction.length))

inductive RadixLetter : Char → ℕ → Prop
  | hexadecimal {letter : Char} (h : letter = 'x' ∨ letter = 'X') : RadixLetter letter 16
  | octal {letter : Char} (h : letter = 'o' ∨ letter = 'O') : RadixLetter letter 8
  | binary {letter : Char} (h : letter = 'b' ∨ letter = 'B') : RadixLetter letter 2

/-- A numeric literal and the value written in it. -/
inductive Literal : List Char → ℚ → Prop
  | radix {letter : Char} {base : ℕ} {digits : List Char} (h_letter : RadixLetter letter base)
      (h_digits : Digits base digits) : Literal ('0' :: letter :: digits) (readDigits base digits)
  | decimal {sign text : List Char} {s : ℤ} {value : ℚ} (h_sign : SignText sign s)
      (h_text : DecimalText text value) : Literal (sign ++ text) (s * value)

/-! ### Exponents -/

theorem splitSign_sound (text : List Char) :
    ∃ sign, SignText sign (splitSign text).1 ∧ text = sign ++ (splitSign text).2 := by
  unfold splitSign
  split
  · exact ⟨['-'], .minus, rfl⟩
  · exact ⟨['+'], .plus, rfl⟩
  · exact ⟨[], .absent, rfl⟩

/-- A text that does not begin with a sign keeps its first character. -/
theorem splitSign_of_ne {c : Char} {text : List Char} (h_minus : c ≠ '-') (h_plus : c ≠ '+') :
    splitSign (c :: text) = (1, c :: text) := by
  unfold splitSign
  split
  · next h => exact absurd (List.cons.inj h).1 h_minus
  · next h => exact absurd (List.cons.inj h).1 h_plus
  · rfl

theorem exponentPart_eq_some {text : List Char} {k : ℤ} :
    exponentPart text = some k ↔ ExponentText text k := by
  constructor
  · intro h
    cases text with
    | nil =>
      obtain rfl := Option.some.inj h
      exact .absent
    | cons letter text =>
      rw [exponentPart] at h
      split at h
      · cases h
      · next h_letter =>
        have h_letter : letter = 'e' ∨ letter = 'E' := by
          by_contra h_other
          exact h_letter (not_or.mp h_other)
        obtain ⟨sign, h_sign, h_text⟩ := splitSign_sound text
        dsimp only at h
        split at h
        · next h_digits =>
          obtain rfl := Option.some.inj h
          have h_written := ExponentText.written h_letter h_sign
            ⟨h_digits.1, List.all_eq_true.mp h_digits.2⟩
          rwa [← h_text] at h_written
        · cases h
  · intro h
    cases h with
    | absent => rfl
    | @written letter sign digits s h_letter h_sign h_digits =>
      have h_known : ¬(letter ≠ 'e' ∧ letter ≠ 'E') :=
        not_and_or.mpr (h_letter.imp not_not.mpr not_not.mpr)
      have h_all : digits ≠ [] ∧ digits.all (isDigitOf 10) = true :=
        ⟨h_digits.some, List.all_eq_true.mpr h_digits.digit⟩
      have h_split : splitSign (sign ++ digits) = (s, digits) := by
        cases h_sign with
        | plus => rfl
        | minus => rfl
        | absent =>
          -- The first digit is no sign.
          obtain ⟨c, rest, rfl⟩ := List.exists_cons_of_ne_nil h_digits.some
          have h_c := h_digits.digit c List.mem_cons_self
          apply splitSign_of_ne
          · rintro rfl
            exact absurd h_c (by decide)
          · rintro rfl
            exact absurd h_c (by decide)
      rw [exponentPart, if_neg h_known, h_split]
      exact if_pos h_all

theorem ExponentText.head {text : List Char} {k : ℤ} (h : ExponentText text k) :
    text = [] ∨ ∃ letter rest, text = letter :: rest ∧ (letter = 'e' ∨ letter = 'E') := by
  cases h with
  | absent => exact .inl rfl
  | written h_letter _ _ => exact .inr ⟨_, _, rfl, h_letter⟩

/-! ### Decimals -/

/-- The text does not go on with a digit. -/
def DigitsEnd (text : List Char) : Prop := ∀ c rest, text = c :: rest → isDigitOf 10 c = false

theorem DigitsEnd.point {text : List Char} : DigitsEnd ('.' :: text) := by
  intro c rest h
  rw [← (List.cons.inj h).1]
  rfl

theorem ExponentText.digitsEnd {text : List Char} {k : ℤ} (h : ExponentText text k) :
    DigitsEnd text := by
  intro c rest h_text
  obtain h_nil | ⟨letter, rest', h_cons, h_letter⟩ := h.head
  · rw [h_nil] at h_text
    cases h_text
  · rw [h_cons] at h_text
    obtain ⟨rfl, -⟩ := List.cons.inj h_text
    obtain rfl | rfl := h_letter <;> rfl

theorem takeWhile_append_end {digits rest : List Char} (h : ∀ c ∈ digits, isDigitOf 10 c = true)
    (h_rest : DigitsEnd rest) : (digits ++ rest).takeWhile (isDigitOf 10) = digits ∧
      (digits ++ rest).dropWhile (isDigitOf 10) = rest := by
  rw [List.takeWhile_append_of_pos h, List.dropWhile_append_of_pos h]
  cases rest with
  | nil => simp
  | cons c rest => simp [h_rest c rest rfl]

theorem splitFraction_cases (text : List Char) :
    (∃ rest, text = '.' :: rest) ∨ splitFraction text = ([], text) := by
  unfold splitFraction
  split
  · exact .inl ⟨_, rfl⟩
  · exact .inr rfl

/-- An exponent does not begin with a point. -/
theorem splitFraction_exponent {text : List Char} {k : ℤ} (h : ExponentText text k) :
    splitFraction text = ([], text) := by
  obtain ⟨rest, rfl⟩ | h_eq := splitFraction_cases text
  · obtain h_nil | ⟨letter, rest', h_cons, h_letter⟩ := h.head
    · cases h_nil
    · obtain ⟨rfl, -⟩ := List.cons.inj h_cons
      obtain h_letter | h_letter := h_letter <;> exact absurd h_letter (by decide)
  · exact h_eq

theorem unsignedDecimal_eq_some {text : List Char} {value : ℚ} :
    unsignedDecimal text = some value ↔ DecimalText text value := by
  constructor
  · intro h
    have h_whole : ∀ c ∈ text.takeWhile (isDigitOf 10), isDigitOf 10 c = true := fun c h_c =>
      List.mem_takeWhile_imp h_c
    have h_split := List.takeWhile_append_dropWhile (p := isDigitOf 10) (l := text)
    rw [unsignedDecimal] at h
    generalize text.takeWhile (isDigitOf 10) = whole at h h_whole h_split
    generalize text.dropWhile (isDigitOf 10) = rest at h h_split
    dsimp only at h
    split at h
    · cases h
    · next h_some =>
      rw [Option.map_eq_some_iff] at h
      obtain ⟨k, h_k, rfl⟩ := h
      rw [exponentPart_eq_some] at h_k
      rw [← h_split]
      obtain ⟨after, rfl⟩ | h_eq := splitFraction_cases rest
      · have h_after := List.takeWhile_append_dropWhile (p := isDigitOf 10) (l := after)
        have h_digits : Digits 10 (whole ++ after.takeWhile (isDigitOf 10)) := by
          refine ⟨fun h_nil => h_some (List.append_eq_nil_iff.mp h_nil), fun c h_c => ?_⟩
          obtain h_c | h_c := List.mem_append.mp h_c
          · exact h_whole c h_c
          · exact List.mem_takeWhile_imp h_c
        have h_text := DecimalText.pointed h_digits h_k
        have h_rest : after.takeWhile (isDigitOf 10) ++ (splitFraction ('.' :: after)).2 = after :=
          h_after
        rwa [h_rest] at h_text
      · rw [h_eq] at h_some h_k ⊢
        have h_digits : Digits 10 whole := ⟨fun h_nil => h_some ⟨h_nil, rfl⟩, h_whole⟩
        simpa using DecimalText.whole h_digits h_k
  · intro h
    cases h with
    | whole h_whole h_exponent =>
      obtain ⟨h_take, h_drop⟩ := takeWhile_append_end h_whole.digit h_exponent.digitsEnd
      rw [unsignedDecimal, h_take, h_drop]
      simp only [splitFraction_exponent h_exponent]
      rw [if_neg fun h_nil => h_whole.some h_nil.1, (exponentPart_eq_some).mpr h_exponent]
      simp
    | @pointed whole fraction exponent k h_digits h_exponent =>
      have h_whole : ∀ c ∈ whole, isDigitOf 10 c = true := fun c h_c =>
        h_digits.digit c (List.mem_append_left _ h_c)
      have h_fraction : ∀ c ∈ fraction, isDigitOf 10 c = true := fun c h_c =>
        h_digits.digit c (List.mem_append_right _ h_c)
      have h_point : DigitsEnd ('.' :: (fraction ++ exponent)) := DigitsEnd.point
      obtain ⟨h_take, h_drop⟩ := takeWhile_append_end h_whole h_point
      obtain ⟨h_take', h_drop'⟩ := takeWhile_append_end h_fraction h_exponent.digitsEnd
      have h_some : ¬(whole = [] ∧ fraction = []) := fun h_nil =>
        h_digits.some (List.append_eq_nil_iff.mpr h_nil)
      have h_split : splitFraction ('.' :: (fraction ++ exponent)) = (fraction, exponent) := by
        rw [splitFraction, h_take', h_drop']
      rw [unsignedDecimal, h_take, h_drop]
      simp only [h_split]
      rw [if_neg h_some, (exponentPart_eq_some).mpr h_exponent]
      rfl

/-! ### Literals -/

theorem radixLiteral_eq_finite {base : ℕ} {digits : List Char} {q : ℚ} :
    radixLiteral base digits = .finite q ↔
      Digits base digits ∧ nearest (readDigits base digits) = .finite q := by
  rw [radixLiteral]
  constructor
  · intro h
    split at h
    · next h_digits => exact ⟨⟨h_digits.1, List.all_eq_true.mp h_digits.2⟩, h⟩
    · cases h
  · rintro ⟨h_digits, h⟩
    rwa [if_pos ⟨h_digits.some, List.all_eq_true.mpr h_digits.digit⟩]

/-- No decimal is the word `Infinity`. -/
theorem DecimalText.head {text : List Char} {value : ℚ} (h : DecimalText text value) :
    ∃ c rest, text = c :: rest ∧ (isDigitOf 10 c = true ∨ c = '.') := by
  cases h with
  | whole h_whole _ =>
    obtain ⟨c, rest, rfl⟩ := List.exists_cons_of_ne_nil h_whole.some
    exact ⟨c, _, rfl, .inl (h_whole.digit c List.mem_cons_self)⟩
  | @pointed whole fraction exponent k h_digits _ =>
    cases whole with
    | nil => exact ⟨'.', _, rfl, .inr rfl⟩
    | cons c whole => exact ⟨c, _, rfl, .inl (h_digits.digit c List.mem_cons_self)⟩

theorem signedDecimal_eq_finite {negative : Bool} {text : List Char} {q : ℚ} :
    signedDecimal negative text = .finite q ↔ ∃ value, DecimalText text value ∧
      nearest (if negative then -value else value) = .finite q := by
  constructor
  · intro h
    rw [signedDecimal] at h
    split at h
    · cases h
    · split at h
      · cases h
      · next value h_value => exact ⟨value, (unsignedDecimal_eq_some).mp h_value, h⟩
  · rintro ⟨value, h_text, h⟩
    have h_word : text ≠ "Infinity".toList := by
      rintro rfl
      obtain ⟨c, rest, h_cons, h_c⟩ := h_text.head
      obtain ⟨rfl, -⟩ := List.cons.inj h_cons
      revert h_c
      decide
    rw [signedDecimal, if_neg h_word, (unsignedDecimal_eq_some).mpr h_text]
    exact h

/-- The second character of a decimal is no letter of a prefix. -/
theorem DecimalText.second {c d : Char} {rest : List Char} {value : ℚ}
    (h : DecimalText (c :: d :: rest) value) :
    isDigitOf 10 d = true ∨ d = '.' ∨ d = 'e' ∨ d = 'E' := by
  generalize h_text : c :: d :: rest = text at h
  cases h with
  | @whole whole exponent k h_whole h_exponent =>
    match whole, h_whole with
    | [x], _ =>
      obtain rfl | ⟨letter, tail, rfl, h_letter⟩ := h_exponent.head
      · cases h_text
      · obtain ⟨-, rfl, -⟩ := by simpa using h_text
        exact .inr (.inr h_letter)
    | x :: y :: whole, h_whole =>
      obtain ⟨-, rfl, -⟩ := by simpa using h_text
      exact .inl (h_whole.digit _ (by simp))
  | @pointed whole fraction exponent k h_digits h_exponent =>
    match whole with
    | [] =>
      obtain ⟨-, h_rest⟩ := List.cons.inj h_text
      cases fraction with
      | nil => exact absurd rfl h_digits.some
      | cons y fraction =>
        obtain ⟨rfl, -⟩ := List.cons.inj h_rest
        exact .inl (h_digits.digit _ (by simp))
    | [x] =>
      obtain ⟨-, rfl, -⟩ := by simpa using h_text
      exact .inr (.inl rfl)
    | x :: y :: whole =>
      obtain ⟨-, rfl, -⟩ := by simpa using h_text
      exact .inl (h_digits.digit _ (by simp))

/-- A decimal without a sign is no literal with a prefix. -/
theorem numeral_unsigned {text : List Char} {value : ℚ} (h : DecimalText text value) :
    numeral text = signedDecimal false text := by
  have h_second : ∀ d rest, text = '0' :: d :: rest →
      isDigitOf 10 d = true ∨ d = '.' ∨ d = 'e' ∨ d = 'E' := by
    rintro d rest rfl
    exact h.second
  obtain ⟨c, rest, h_cons, h_c⟩ := h.head
  unfold numeral
  split
  all_goals first
    | rfl
    | exact absurd (h_second _ _ rfl) (by decide)
    | (obtain ⟨rfl, -⟩ := List.cons.inj h_cons
       exact absurd h_c (by decide))

/-- **The literals** are what is read, each as the double nearest to its value. -/
theorem numeral_eq_finite {text : List Char} {q : ℚ} :
    numeral text = .finite q ↔ ∃ value, Literal text value ∧ nearest value = .finite q := by
  constructor
  · intro h
    have h_decimal : ∀ negative text, signedDecimal negative text = .finite q → ∀ sign s,
        SignText sign s → (s = if negative then -1 else 1) →
        ∃ value, Literal (sign ++ text) value ∧ nearest value = .finite q := by
      intro negative text h_eq sign s h_sign h_s
      obtain ⟨value, h_text, h_value⟩ := (signedDecimal_eq_finite).mp h_eq
      refine ⟨s * value, .decimal h_sign h_text, ?_⟩
      cases negative <;> simpa [h_s] using h_value
    have h_radix : ∀ base letter digits, radixLiteral base digits = .finite q →
        RadixLetter letter base →
        ∃ value, Literal ('0' :: letter :: digits) value ∧ nearest value = .finite q := by
      intro base letter digits h_eq h_letter
      obtain ⟨h_digits, h_value⟩ := (radixLiteral_eq_finite).mp h_eq
      exact ⟨_, .radix h_letter h_digits, h_value⟩
    unfold numeral at h
    split at h
    · exact h_radix 16 _ _ h (.hexadecimal (.inl rfl))
    · exact h_radix 16 _ _ h (.hexadecimal (.inr rfl))
    · exact h_radix 8 _ _ h (.octal (.inl rfl))
    · exact h_radix 8 _ _ h (.octal (.inr rfl))
    · exact h_radix 2 _ _ h (.binary (.inl rfl))
    · exact h_radix 2 _ _ h (.binary (.inr rfl))
    · exact h_decimal false _ h ['+'] 1 .plus rfl
    · exact h_decimal true _ h ['-'] (-1) .minus rfl
    · exact h_decimal false _ h [] 1 .absent rfl
  · rintro ⟨value, h_literal, h_value⟩
    cases h_literal with
    | radix h_letter h_digits =>
      have h_radix := (radixLiteral_eq_finite).mpr ⟨h_digits, h_value⟩
      cases h_letter with
      | hexadecimal h => obtain rfl | rfl := h <;> exact h_radix
      | octal h => obtain rfl | rfl := h <;> exact h_radix
      | binary h => obtain rfl | rfl := h <;> exact h_radix
    | @decimal sign text s value h_sign h_text =>
      have h_signed : ∀ negative, (s = if negative then -1 else 1) →
          signedDecimal negative text = .finite q := by
        intro negative h_s
        refine (signedDecimal_eq_finite).mpr ⟨value, h_text, ?_⟩
        cases negative <;> simpa [h_s] using h_value
      cases h_sign with
      | absent => exact (numeral_unsigned h_text).trans (h_signed false rfl)
      | plus => exact h_signed false rfl
      | minus => exact h_signed true rfl

end Framework
