import ServerCentral.ClientIp.Addresses
import ServerCentral.Framework.Literals
import Mathlib.Tactic.IntervalCases

/-!
# Entries of the trusted-proxy list

An entry is an address, or an address with the length of a prefix, and stands for every address
that agrees with it on so many bits (`inCidr_iff`). The length goes through `Number`, which
accepts more than digits: nothing at all, blanks, a sign, a fraction, an exponent, a prefix of
another base. `exact_iff` says for which texts `parseCidr` accepts what is written.
-/

open Framework

namespace ServerCentral.ClientIp

open Auth (isSpace dropBlanks_visible)

/-! ### Covering -/

/-- The address is of the same family, and its first `n` bits are those of `a`. -/
def Within (ip a : Address) (n : ℕ) : Prop :=
  ip.bytes.length = a.bytes.length ∧ leadingBits ip.bytes n = leadingBits a.bytes n

theorem any_range_ne {a b : List UInt8} {n : ℕ} :
    ((List.range n).any fun i => decide (a[i]? ≠ b[i]?)) = false ↔ a.take n = b.take n := by
  rw [List.any_eq_false]
  constructor
  · intro h
    apply List.ext_getElem?
    intro i
    by_cases h_i : i < n
    · have h_same := h i (List.mem_range.mpr h_i)
      rw [decide_eq_true_eq, not_not] at h_same
      rw [List.getElem?_take_of_lt h_i, List.getElem?_take_of_lt h_i, h_same]
    · rw [List.getElem?_take, List.getElem?_take, if_neg h_i, if_neg h_i]
  · intro h i h_i
    have h_get := congrArg (·[i]?) h
    simp only [List.getElem?_take_of_lt (List.mem_range.mp h_i)] at h_get
    rw [decide_eq_true_eq, not_not]
    exact h_get

/-- **An entry covers** the addresses of its prefix. -/
theorem inCidr_iff (ip : Address) (cidr : Cidr) :
    inCidr ip cidr = true ↔ Within ip cidr.address cidr.bits := by
  rw [inCidr, Within]
  by_cases h_length : ip.bytes.length = cidr.address.bytes.length
  · have h_within : cidr.bits ≤ 8 * ip.bytes.length := h_length ▸ cidr.within
    have h_shift : cidr.bits >>> 3 = cidr.bits / 8 := Nat.shiftRight_eq_div_pow _ _
    have h_and : cidr.bits &&& 7 = cidr.bits % 8 := Nat.and_two_pow_sub_one_eq_mod _ 3
    rw [if_neg (not_not.mpr h_length), leadingBits_eq_iff h_length h_within, h_shift, h_and]
    rw [← any_range_ne]
    dsimp only
    generalize ((List.range (cidr.bits / 8)).any fun i =>
      decide (ip.bytes[i]? ≠ cidr.address.bytes[i]?)) = differs
    cases differs <;> simp [h_length]
  · rw [if_pos h_length]
    simp [h_length]

/-! ### What is written -/

/-- One to three decimal digits. -/
structure PrefixLength (length : Text) : Prop where
  digits : Digits 10 length
  short : length.length ≤ 3

/-- The entry is an address alone, or an address, a slash and the length of a prefix of it. -/
inductive Written : Text → Address → ℕ → Prop
  | alone {s : Text} {a : Address} (h_slash : '/' ∉ s) (h : parseIp s = some a) :
      Written s a a.width
  | withLength {address length : Text} {a : Address} (h_a : parseIp address = some a)
      (h_length : PrefixLength length) (h_width : readDigits 10 length ≤ a.width) :
      Written (address ++ '/' :: length) a (readDigits 10 length)

/-- The text is no prefix length, yet it is empty or blank, or a numeric literal whose value
rounds to a whole number up to `width`. -/
structure Misleading (length : Text) (width : ℕ) : Prop where
  shape : ¬PrefixLength length
  whole : trim length = [] ∨ ∃ (value : ℚ) (k : ℕ),
    Literal (trim length) value ∧ nearest value = .finite k ∧ k ≤ width

/-- An address with a misleading length behind its last slash. -/
def Misread (s : Text) : Prop :=
  ∃ address length a, s = address ++ '/' :: length ∧ '/' ∉ length ∧ parseIp address = some a ∧
    Misleading length a.width

/-- The entry is accepted as it is written, or not at all, and covers what it says. -/
structure Exact (s : Text) : Prop where
  accepted : ∀ a n, Written s a n → ∃ cidr, parseCidr s = some cidr ∧ cidr.address = a ∧
    cidr.bits = n
  written : ∀ cidr, parseCidr s = some cidr → Written s cidr.address cidr.bits
  covers : ∀ cidr, parseCidr s = some cidr →
    ∀ ip, inCidr ip cidr = true ↔ Within ip cidr.address cidr.bits

/-! ### The length -/

theorem digit_range {c : Char} (h : isDigitOf 10 c = true) : 48 ≤ c.toNat ∧ c.toNat ≤ 57 := by
  have h_lt : digitValue c < 10 := of_decide_eq_true h
  rw [digitValue] at h_lt
  split at h_lt
  · next h_digit => exact ⟨UInt32.le_iff_toNat_le.mp h_digit.1, UInt32.le_iff_toNat_le.mp h_digit.2⟩
  · split at h_lt
    · omega
    · split at h_lt <;> omega

theorem isSpace_decimal {c : Char} (h : isDigitOf 10 c = true) : isSpace c = false := by
  obtain ⟨h_low, h_high⟩ := digit_range h
  rw [← Char.ofNat_toNat c]
  interval_cases c.toNat <;> decide

theorem trim_digits {text : Text} (h : ∀ c ∈ text, isDigitOf 10 c = true) : trim text = text := by
  rw [trim, dropBlanks_visible fun c h_c => isSpace_decimal (h c h_c)]

/-- Digits of a prefix length are read as they stand. -/
theorem toNumber_digits {length : Text} (h : PrefixLength length) :
    (toNumber length).whole = some (readDigits 10 length : ℤ) := by
  have h_short : length.length ≤ 15 := h.short.trans (by decide)
  have h_trim := trim_digits h.digits.digit
  have h_value := numeral_digits h.digits.some h.digits.digit h_short
  rw [toNumber, h_trim, if_neg h.digits.some, h_value]
  exact_mod_cast Number.whole_intCast (readDigits 10 length : ℤ)

theorem toNumber_whole {length : Text} {k : ℕ} : (toNumber length).whole = some (k : ℤ) ↔
    (trim length = [] ∧ k = 0) ∨
      ∃ value, Literal (trim length) value ∧ nearest value = .finite k := by
  rw [toNumber, Number.whole_eq_some]
  split
  · next h_blank =>
    have h_none : ∀ value, ¬Literal (trim length) value := by
      intro value h_literal
      rw [h_blank] at h_literal
      generalize h_text : ([] : List Char) = text at h_literal
      cases h_literal with
      | radix _ _ => cases h_text
      | decimal _ h_text' =>
        obtain ⟨c, rest, rfl, -⟩ := h_text'.head
        simp at h_text
    constructor
    · intro h
      have h_zero : (0 : ℚ) = k := by simpa using h
      exact .inl ⟨h_blank, by exact_mod_cast h_zero.symm⟩
    · rintro (⟨-, rfl⟩ | ⟨value, h_literal, -⟩)
      · simp
      · exact absurd h_literal (h_none value)
  · next h_some =>
    rw [numeral_eq_finite]
    simp [h_some]

theorem misleading_iff {length : Text} {width : ℕ} : Misleading length width ↔
    ¬PrefixLength length ∧ ∃ k : ℕ, (toNumber length).whole = some (k : ℤ) ∧ k ≤ width := by
  constructor
  · rintro ⟨h_shape, h_blank | ⟨value, k, h_literal, h_value, h_le⟩⟩
    · exact ⟨h_shape, 0, (toNumber_whole).mpr (.inl ⟨h_blank, rfl⟩), Nat.zero_le _⟩
    · exact ⟨h_shape, k, (toNumber_whole).mpr (.inr ⟨value, h_literal, h_value⟩), h_le⟩
  · rintro ⟨h_shape, k, h_whole, h_le⟩
    obtain ⟨h_blank, -⟩ | ⟨value, h_literal, h_value⟩ := (toNumber_whole).mp h_whole
    · exact ⟨h_shape, .inl h_blank⟩
    · exact ⟨h_shape, .inr ⟨value, k, h_literal, h_value, h_le⟩⟩

/-! ### Entries -/

theorem parseCidr_alone {s : Text} (h : '/' ∉ s) : parseCidr s =
    (parseIp s).map fun address => ⟨address, address.width, none, le_rfl⟩ := by
  rw [parseCidr, splitLast_eq_none.mpr h]

/-- **What `parseCidr` makes of a length**: a whole number up to the width, and nothing else. -/
theorem parseCidr_slash {address length : Text} (h : '/' ∉ length) {cidr : Cidr} :
    parseCidr (address ++ '/' :: length) = some cidr ↔
      parseIp address = some cidr.address ∧ (toNumber length).whole = some (cidr.bits : ℤ) ∧
        cidr.header = none := by
  rw [parseCidr, splitLast_eq_some.mpr ⟨rfl, h⟩]
  simp only [Option.bind_eq_some_iff]
  constructor
  · rintro ⟨a, h_a, bits, h_bits, h_cidr⟩
    split at h_cidr
    · cases h_cidr
    · next h_range =>
      obtain rfl := Option.some.inj h_cidr
      rw [not_or, not_lt, not_lt] at h_range
      exact ⟨h_a, h_bits.trans (by rw [Int.toNat_of_nonneg h_range.1]), rfl⟩
  · rintro ⟨h_a, h_bits, h_header⟩
    refine ⟨cidr.address, h_a, cidr.bits, h_bits, ?_⟩
    have h_within := cidr.within
    rw [dif_neg (by omega)]
    obtain ⟨a, bits, header, within⟩ := cidr
    obtain rfl : header = none := h_header
    rfl

/-- The last slash is where the length begins. -/
theorem slash_cases (s : Text) :
    '/' ∉ s ∨ ∃ address length, s = address ++ '/' :: length ∧ '/' ∉ length := by
  cases h : splitLast '/' s with
  | none => exact .inl (splitLast_eq_none.mp h)
  | some pieces => exact .inr ⟨pieces.1, pieces.2, splitLast_eq_some.mp h⟩

theorem PrefixLength.slash {length : Text} (h : PrefixLength length) : '/' ∉ length :=
  fun h_mem => absurd (h.digits.digit _ h_mem) (by decide)

/-- Behind the last slash of what is written stands a prefix length. -/
theorem Written.prefixLength {s : Text} {a : Address} {n : ℕ} (h : Written s a n)
    {address length : Text} (h_s : s = address ++ '/' :: length) (h_slash : '/' ∉ length) :
    PrefixLength length := by
  have h_split := splitLast_eq_some.mpr ⟨h_s, h_slash⟩
  cases h with
  | alone h_none _ =>
    rw [splitLast_eq_none.mpr h_none] at h_split
    cases h_split
  | withLength _ h_length _ =>
    rw [splitLast_eq_some.mpr ⟨rfl, h_length.slash⟩] at h_split
    obtain ⟨-, rfl⟩ := Prod.mk.inj (Option.some.inj h_split)
    exact h_length

/-- What is written is accepted. -/
theorem parseCidr_written {s : Text} {a : Address} {n : ℕ} (h : Written s a n) :
    ∃ cidr, parseCidr s = some cidr ∧ cidr.address = a ∧ cidr.bits = n := by
  cases h with
  | alone h_slash h_a =>
    refine ⟨⟨a, a.width, none, le_rfl⟩, ?_, rfl, rfl⟩
    rw [parseCidr_alone h_slash, h_a]
    rfl
  | withLength h_a h_length h_width =>
    exact ⟨⟨a, _, none, h_width⟩,
      (parseCidr_slash h_length.slash).mpr ⟨h_a, toNumber_digits h_length, rfl⟩, rfl, rfl⟩

/-- What is accepted is written, where no length is misleading. -/
theorem written_of_parseCidr {s : Text} (h_read : ¬Misread s) {cidr : Cidr}
    (h : parseCidr s = some cidr) : Written s cidr.address cidr.bits := by
  obtain h_slash | ⟨address, length, rfl, h_length⟩ := slash_cases s
  · rw [parseCidr_alone h_slash] at h
    obtain ⟨a, h_a, rfl⟩ := Option.map_eq_some_iff.mp h
    exact .alone h_slash h_a
  · obtain ⟨h_a, h_bits, -⟩ := (parseCidr_slash h_length).mp h
    have h_shape : PrefixLength length := by
      by_contra h_shape
      exact h_read ⟨address, length, cidr.address, rfl, h_length, h_a,
        (misleading_iff).mpr ⟨h_shape, cidr.bits, h_bits, cidr.within⟩⟩
    have h_value : (readDigits 10 length : ℤ) = cidr.bits :=
      Option.some.inj ((toNumber_digits h_shape).symm.trans h_bits)
    have h_value : readDigits 10 length = cidr.bits := by exact_mod_cast h_value
    rw [← h_value]
    exact .withLength h_a h_shape (h_value ▸ cidr.within)

/-- A misleading length is accepted. -/
theorem not_exact_of_misread {s : Text} (h : Misread s) : ¬Exact s := by
  obtain ⟨address, length, a, rfl, h_slash, h_a, h_misleading⟩ := h
  obtain ⟨h_shape, k, h_whole, h_le⟩ := (misleading_iff).mp h_misleading
  intro h_exact
  have h_accepted : parseCidr (address ++ '/' :: length) = some ⟨a, k, none, h_le⟩ :=
    (parseCidr_slash h_slash).mpr ⟨h_a, h_whole, rfl⟩
  exact h_shape ((h_exact.written _ h_accepted).prefixLength rfl h_slash)

/-! ### Where entries come from -/

/-- `/^[A-Za-z0-9!#$%&'*+.^_|~-]+$/`, and the grave accent. -/
def headerToken (name : Text) : Bool :=
  name ≠ [] && name.all fun c => c.isAlphanum || c ∈ "!#$%&'*+.^_`|~-".toList

/-- The loop of `setTrustedProxies` over the rows of the form. -/
def formEntries : List (Text × Text) → Except String (List TrustedProxyEntry)
  | [] => .ok []
  | (address, header) :: rows =>
    let trimmed := trim address
    if trimmed = [] then formEntries rows
    else if (parseCidr trimmed).isNone then
      .error s!"\"{String.ofList trimmed}\" isn't a valid IP address or CIDR range"
    else
      let name := trim header
      if name ≠ [] ∧ headerToken name = false then
        .error s!"\"{String.ofList name}\" isn't a valid header name"
      else (formEntries rows).map fun entries =>
        (if name ≠ [] then .withHeader trimmed (some (toLowerCase name)) else .address trimmed) ::
          entries

def setTrustedProxies (locked : Bool) (rows : List (Text × Text)) :
    Except String (List TrustedProxyEntry) :=
  if locked then
    .error "Trusted proxies are set by SC_TRUSTED_PROXIES in the environment, so they can't be changed here"
  else formEntries rows

/-- A list of entries is submitted, read from the configuration, or set in the environment. -/
inductive ProxySource where
  | form (rows : List (Text × Text))
  | config (entries : List TrustedProxyEntry)
  | environment (value : Text)

namespace ProxySource

/-- The entries that are applied; a form that is refused changes nothing. -/
def entries : ProxySource → Except String (List TrustedProxyEntry)
  | form rows => setTrustedProxies false rows
  | config entries => .ok entries
  | environment value => .ok (parseTrustedProxiesEnv value)

/-- The addresses and ranges that were entered. -/
def texts : ProxySource → List Text
  | form rows => (rows.map fun row => trim row.1).filter (· ≠ [])
  | config entries => entries.map TrustedProxyEntry.text
  | environment value => (parseTrustedProxiesEnv value).map TrustedProxyEntry.text

end ProxySource

/-- A form that is accepted has an entry that parses in each row that is not blank. -/
theorem formEntries_ok {rows : List (Text × Text)} {entries : List TrustedProxyEntry}
    (h : formEntries rows = .ok entries) :
    entries.map TrustedProxyEntry.text = (rows.map fun row => trim row.1).filter (· ≠ []) ∧
      ∀ entry ∈ entries, (parseCidr entry.text).isSome = true := by
  induction rows generalizing entries with
  | nil =>
    obtain rfl := Except.ok.inj h
    exact ⟨rfl, fun _ h_entry => absurd h_entry List.not_mem_nil⟩
  | cons row rows ih =>
    obtain ⟨address, header⟩ := row
    rw [formEntries] at h
    dsimp only at h
    split at h
    · next h_blank =>
      obtain ⟨h_texts, h_some⟩ := ih h
      exact ⟨by simpa [h_blank] using h_texts, h_some⟩
    · next h_text =>
      split at h
      · cases h
      · next h_parsed =>
        split at h
        · cases h
        · cases h_rest : formEntries rows with
          | error message =>
            rw [h_rest] at h
            cases h
          | ok rest =>
            rw [h_rest] at h
            obtain rfl := Except.ok.inj h
            obtain ⟨h_texts, h_some⟩ := ih h_rest
            have h_entry : ∀ name : Text, (if name ≠ [] then
                TrustedProxyEntry.withHeader (trim address) (some (toLowerCase name))
                else .address (trim address)).text = trim address := by
              intro name
              split <;> rfl
            constructor
            · simp only [List.map_cons, h_entry, h_texts]
              rw [List.filter_cons_of_pos (by simpa using h_text)]
            · intro entry h_mem
              obtain rfl | h_mem := List.mem_cons.mp h_mem
              · rw [h_entry]
                cases h_cidr : parseCidr (trim address) with
                | none => exact absurd (h_cidr ▸ rfl) h_parsed
                | some cidr => rfl
              · exact h_some entry h_mem

theorem ProxySource.texts_entries {source : ProxySource} {entries : List TrustedProxyEntry}
    (h : source.entries = .ok entries) : entries.map TrustedProxyEntry.text = source.texts := by
  cases source with
  | form rows => exact (formEntries_ok h).1
  | config entries' =>
    obtain rfl := Except.ok.inj h
    rfl
  | environment value =>
    obtain rfl := Except.ok.inj h
    rfl

/-- What is trusted is an entry that `parseCidr` accepts. -/
theorem mem_parseTrustedProxies {entries : List TrustedProxyEntry} {cidr : Cidr}
    (h : cidr ∈ parseTrustedProxies entries) : ∃ entry ∈ entries, ∃ parsed,
      parseCidr entry.text = some parsed ∧ parsed.address = cidr.address ∧
        parsed.bits = cidr.bits := by
  obtain ⟨entry, h_entry, h_cidr⟩ := List.mem_filterMap.mp h
  obtain ⟨parsed, h_parsed, h_eq⟩ := Option.map_eq_some_iff.mp h_cidr
  refine ⟨entry, h_entry, parsed, h_parsed, ?_⟩
  rw [← h_eq]
  split <;> exact ⟨rfl, rfl⟩

/-- What is applied from a source is what was entered there: nothing else is trusted, and a form
with anything else is refused. -/
structure Applied (source : ProxySource) (entries : List TrustedProxyEntry) : Prop where
  trusted : ∀ cidr ∈ parseTrustedProxies entries, ∃ text ∈ source.texts,
    Written text cidr.address cidr.bits ∧
      ∀ ip, inCidr ip cidr = true ↔ Within ip cidr.address cidr.bits
  refused : ∀ rows, source = .form rows → ∀ text ∈ source.texts, ∃ a n, Written text a n

/-- **Main result.** An entry is accepted exactly as it is written unless its length is
misleading; and without such lengths what is applied from a form, from the configuration or from
the environment is what was entered there. -/
theorem exact_iff (s : Text) : (Exact s ↔ ¬Misread s) ∧
    ∀ (source : ProxySource) entries, source.entries = .ok entries →
      (∀ text ∈ source.texts, ¬Misread text) → Applied source entries := by
  constructor
  · constructor
    · exact fun h_exact h => not_exact_of_misread h h_exact
    · intro h
      exact ⟨fun _ _ => parseCidr_written, fun _ => written_of_parseCidr h,
        fun cidr _ ip => inCidr_iff ip cidr⟩
  · intro source entries h_entries h
    have h_texts := ProxySource.texts_entries h_entries
    constructor
    · intro cidr h_cidr
      obtain ⟨entry, h_entry, parsed, h_parsed, h_address, h_bits⟩ :=
        mem_parseTrustedProxies h_cidr
      have h_text : entry.text ∈ source.texts := h_texts ▸ List.mem_map_of_mem h_entry
      have h_written := written_of_parseCidr (h _ h_text) h_parsed
      rw [h_address, h_bits] at h_written
      exact ⟨entry.text, h_text, h_written, fun ip => inCidr_iff ip cidr⟩
    · rintro rows rfl text h_text
      have h_mem : text ∈ entries.map TrustedProxyEntry.text := h_texts ▸ h_text
      obtain ⟨entry, h_entry, rfl⟩ := List.mem_map.mp h_mem
      obtain ⟨parsed, h_parsed⟩ := Option.isSome_iff_exists.mp ((formEntries_ok h_entries).2 _ h_entry)
      exact ⟨_, _, written_of_parseCidr (h _ h_text) h_parsed⟩

/-- **A missing length** is read as `0`, and the entry trusts every address of its family. -/
theorem missing_length_accepted : ¬∀ s, Exact s := by
  intro h
  let zero : Address := ⟨[10, 0, 0, 0], .inl rfl⟩
  have h_accepted : parseCidr "10.0.0.0/".toList = some ⟨zero, 0, none, Nat.zero_le _⟩ := by
    decide +kernel
  have h_length := ((h _).written _ h_accepted).prefixLength
    (rfl : _ = "10.0.0.0".toList ++ '/' :: []) List.not_mem_nil
  exact h_length.digits.some rfl

end ServerCentral.ClientIp
