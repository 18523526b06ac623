import ServerCentral.Framework.Splitting
import ServerCentral.Framework.Utf8

/-!
# Text inside a URL

The two encodings a browser has for text in a URL. `encodeURIComponent` writes the bytes of what
it does not leave as it is after percent signs, and `decodeURIComponent` fails on what is not
written that way. `URLSearchParams` writes a space as a plus sign and reads everything, as it is
or with replacement characters.

What one encoding writes, the decoding of its kind reads back; `URLSearchParams` also reads what
`encodeURIComponent` has written.
-/

namespace Framework

/-! ### Percent signs -/

def hexDigit (n : ℕ) : Char := if n < 10 then Char.ofNat (48 + n) else Char.ofNat (55 + n)

def hexValue (c : Char) : Option ℕ :=
  if '0' ≤ c ∧ c ≤ '9' then some (c.toNat - 48)
  else if 'A' ≤ c ∧ c ≤ 'F' then some (c.toNat - 55)
  else if 'a' ≤ c ∧ c ≤ 'f' then some (c.toNat - 87)
  else none

/-- A byte as a percent sign and two digits. -/
def percentByte (b : ℕ) : List Char := ['%', hexDigit (b / 16), hexDigit (b % 16)]

/-- The byte of two digits. -/
def hexByte (a b : Char) : Option ℕ := do
  let high ← hexValue a
  let low ← hexValue b
  some (high * 16 + low)

/-- Write every character, or the bytes of those for which `keep` has none. -/
def percentEncode (keep : Char → Option Char) (text : List Char) : List Char :=
  text.flatMap fun c => match keep c with
    | some written => [written]
    | none => (utf8Bytes c).flatMap percentByte

/-- The byte a text begins with. -/
def leadingByte : List Char → Option ℕ
  | a :: b :: _ => hexByte a b
  | _ => none

/-- The bytes of a text after the characters that are `read` already, with `none` for a percent
sign that no digits follow. -/
def percentDecodeFrom : ℕ → List Char → List (Option ℕ)
  | _, [] => []
  | read + 1, _ :: rest => percentDecodeFrom read rest
  | 0, c :: rest =>
    if c = '%' then match leadingByte rest with
      | some byte => some byte :: percentDecodeFrom 2 rest
      | none => none :: percentDecodeFrom 0 rest
    else (utf8Bytes c).map some ++ percentDecodeFrom 0 rest

def percentDecode (text : List Char) : List (Option ℕ) := percentDecodeFrom 0 text

theorem hexValue_hexDigit {n : ℕ} (h : n < 16) : hexValue (hexDigit n) = some n := by
  have h_all : ∀ n : Fin 16, hexValue (hexDigit n) = some n.val := by decide
  exact h_all ⟨n, h⟩

theorem hexDigit_alphanum {n : ℕ} (h : n < 16) : (hexDigit n).isAlphanum = true := by
  have h_all : ∀ n : Fin 16, (hexDigit n).isAlphanum = true := by decide
  exact h_all ⟨n, h⟩

/-- A byte is read back. -/
theorem percentDecode_byte {b : ℕ} (h : b < 256) (rest : List Char) :
    percentDecode (percentByte b ++ rest) = some b :: percentDecode rest := by
  have h_byte : hexByte (hexDigit (b / 16)) (hexDigit (b % 16)) = some b := by
    rw [hexByte, hexValue_hexDigit (by omega), hexValue_hexDigit (by omega)]
    exact congrArg some (by omega)
  show percentDecodeFrom 0 ('%' :: hexDigit (b / 16) :: hexDigit (b % 16) :: rest) = _
  rw [percentDecodeFrom, if_pos rfl, leadingByte, h_byte]
  rfl

theorem percentDecode_bytes {bytes : List ℕ} (h : ∀ b ∈ bytes, b < 256) (rest : List Char) :
    percentDecode (bytes.flatMap percentByte ++ rest) = bytes.map some ++ percentDecode rest := by
  induction bytes with
  | nil => rfl
  | cons b bytes ih =>
    have h_rest := ih fun b h_b => h b (List.mem_cons_of_mem _ h_b)
    rw [List.flatMap_cons, List.append_assoc, percentDecode_byte (h b List.mem_cons_self), h_rest]
    rfl

/-- **The bytes are read back** where the characters that are kept stand for themselves. -/
theorem percentDecode_encode {keep : Char → Option Char}
    (h : ∀ c written, keep c = some written → written = c ∧ c ≠ '%') (text : List Char) :
    percentDecode (percentEncode keep text) = (utf8 text).map some := by
  induction text with
  | nil => rfl
  | cons c text ih =>
    rw [percentEncode, List.flatMap_cons, ← percentEncode, utf8, List.flatMap_cons, ← utf8,
      List.map_append, ← ih]
    cases h_keep : keep c with
    | none => exact percentDecode_bytes (utf8Bytes_lt c) _
    | some written =>
      obtain ⟨rfl, h_c⟩ := h c written h_keep
      rw [List.singleton_append, percentDecode, percentDecodeFrom, if_neg h_c]
      rfl

/-- What is written: what is kept, percent signs and digits. -/
theorem mem_percentEncode {keep : Char → Option Char} {text : List Char} {c : Char}
    (h : c ∈ percentEncode keep text) :
    (∃ d ∈ text, keep d = some c) ∨ c = '%' ∨ c.isAlphanum = true := by
  obtain ⟨d, h_d, h_c⟩ := List.mem_flatMap.mp h
  split at h_c
  next written h_keep => exact .inl ⟨d, h_d, by rw [h_keep, List.mem_singleton.mp h_c]⟩
  next =>
    obtain ⟨b, h_b, h_c⟩ := List.mem_flatMap.mp h_c
    have h_byte := utf8Bytes_lt d b h_b
    simp only [percentByte, List.mem_cons, List.not_mem_nil, or_false] at h_c
    obtain rfl | rfl | rfl := h_c
    · exact .inr (.inl rfl)
    · exact .inr (.inr (hexDigit_alphanum (by omega)))
    · exact .inr (.inr (hexDigit_alphanum (by omega)))

theorem percentEncode_ne_nil {keep : Char → Option Char} {text : List Char} (h : text ≠ []) :
    percentEncode keep text ≠ [] := by
  obtain ⟨c, rest, rfl⟩ := List.exists_cons_of_ne_nil h
  rw [percentEncode, List.flatMap_cons]
  refine List.append_ne_nil_of_left_ne_nil ?_ _
  split
  · exact List.cons_ne_nil _ _
  · rw [utf8Bytes]
    split
    · exact List.cons_ne_nil _ _
    split
    · exact List.cons_ne_nil _ _
    split
    · exact List.cons_ne_nil _ _
    · exact List.cons_ne_nil _ _

/-! ### `encodeURIComponent` -/

/-- Letters, digits and nine other characters stay. -/
def uriKeep (c : Char) : Option Char :=
  if c.isAlphanum ∨ c ∈ ['-', '_', '.', '!', '~', '*', '\'', '(', ')'] then some c else none

def encodeURIComponent (text : List Char) : List Char := percentEncode uriKeep text

/-- `none` is a `URIError`. -/
def decodeURIComponent (text : List Char) : Option (List Char) :=
  ((percentDecode text).mapM id).bind decodeStrict

theorem uriKeep_eq {c written : Char} (h : uriKeep c = some written) : written = c ∧
    (c.isAlphanum = true ∨ c ∈ ['-', '_', '.', '!', '~', '*', '\'', '(', ')']) := by
  rw [uriKeep] at h
  split at h
  next h_c => exact ⟨(Option.some.inj h).symm, h_c⟩
  · exact absurd h (by simp)

/-- Whatever has a meaning in a URL is written in bytes. -/
theorem notMem_encodeURIComponent {c : Char} (h : uriKeep c = none) (h_percent : c ≠ '%')
    (text : List Char) : c ∉ encodeURIComponent text := by
  intro h_mem
  have h_not : c.isAlphanum ≠ true := fun h_alpha => absurd h (by simp [uriKeep, h_alpha])
  obtain ⟨d, -, h_keep⟩ | h_eq | h_alpha := mem_percentEncode h_mem
  · obtain ⟨rfl, -⟩ := uriKeep_eq h_keep
    exact absurd (h.symm.trans h_keep) (by simp)
  · exact h_percent h_eq
  · exact h_not h_alpha

theorem mapM_some {α : Type*} (l : List α) : (l.map some).mapM id = some l := by
  induction l with
  | nil => rfl
  | cons a l ih => simp [ih]

theorem percentDecode_uri (text : List Char) :
    percentDecode (encodeURIComponent text) = (utf8 text).map some := by
  refine percentDecode_encode (fun c written h => ?_) text
  obtain ⟨rfl, h_c⟩ := uriKeep_eq h
  refine ⟨rfl, ?_⟩
  rintro rfl
  exact absurd h_c (by decide)

/-- **A component is read back.** -/
theorem decodeURIComponent_encode (text : List Char) :
    decodeURIComponent (encodeURIComponent text) = some text := by
  rw [decodeURIComponent, percentDecode_uri, mapM_some]
  exact decodeStrict_utf8 text

theorem mapM_decodeURIComponent (parts : List (List Char)) :
    (parts.map encodeURIComponent).mapM decodeURIComponent = some parts := by
  induction parts with
  | nil => rfl
  | cons part parts ih => simp [decodeURIComponent_encode, ih]

/-! ### `URLSearchParams` -/

def formKeep (c : Char) : Option Char :=
  if c = ' ' then some '+'
  else if c.isAlphanum ∨ c ∈ ['*', '-', '.', '_'] then some c else none

def formEncode (text : List Char) : List Char := percentEncode formKeep text

def plusToSpace (c : Char) : Char := if c = '+' then ' ' else c

def formDecode (text : List Char) : List Char :=
  decodeLossy ((percentDecode (text.map plusToSpace)).map fun byte => byte.getD 0x25)

/-- The pairs of a query. -/
def searchPairs (query : List Char) : List (List Char × List Char) :=
  let query := if query.head? = some '?' then query.tail else query
  ((query.splitOn '&').filter (· ≠ [])).map fun piece =>
    match splitFirst '=' piece with
    | some (name, value) => (formDecode name, formDecode value)
    | none => (formDecode piece, [])

/-- `new URLSearchParams(query).get(name)` -/
def searchGet (query name : List Char) : Option (List Char) :=
  ((searchPairs query).find? fun pair => pair.1 = name).map Prod.snd

/-- The text of a query with these pairs. -/
def searchText (pairs : List (List Char × List Char)) : List Char :=
  join '&' (pairs.map fun pair => formEncode pair.1 ++ '=' :: formEncode pair.2)

theorem formKeep_eq {c written : Char} (h : formKeep c = some written) :
    c = ' ' ∧ written = '+' ∨ c ≠ ' ' ∧ written = c ∧
      (c.isAlphanum = true ∨ c ∈ ['*', '-', '.', '_']) := by
  rw [formKeep] at h
  split at h
  next h_c => exact .inl ⟨h_c, (Option.some.inj h).symm⟩
  next h_space =>
    split at h
    next h_c => exact .inr ⟨h_space, (Option.some.inj h).symm, h_c⟩
    · exact absurd h (by simp)

theorem notMem_formEncode {c : Char} (h : formKeep c = none) (h_percent : c ≠ '%')
    (h_plus : c ≠ '+') (text : List Char) : c ∉ formEncode text := by
  intro h_mem
  have h_not : c.isAlphanum ≠ true := by
    intro h_alpha
    rw [formKeep] at h
    split at h
    · exact absurd h (by simp)
    · exact absurd h (by simp [h_alpha])
  obtain ⟨d, -, h_keep⟩ | h_eq | h_alpha := mem_percentEncode h_mem
  · obtain ⟨-, rfl⟩ | ⟨-, rfl, -⟩ := formKeep_eq h_keep
    · exact h_plus rfl
    · exact absurd (h.symm.trans h_keep) (by simp)
  · exact h_percent h_eq
  · exact h_not h_alpha

/-- Digits and percent signs are not plus signs. -/
theorem map_plusToSpace_bytes {bytes : List ℕ} (h : ∀ b ∈ bytes, b < 256) :
    (bytes.flatMap percentByte).map plusToSpace = bytes.flatMap percentByte := by
  refine (List.map_congr_left fun c h_c => ?_).trans (List.map_id _)
  obtain ⟨b, h_b, h_c⟩ := List.mem_flatMap.mp h_c
  have h_byte := h b h_b
  refine if_neg ?_
  rintro rfl
  simp only [percentByte, List.mem_cons, List.not_mem_nil, or_false] at h_c
  obtain h_eq | h_eq | h_eq := h_c
  · exact absurd h_eq (by decide)
  · have h_alpha : (hexDigit (b / 16)).isAlphanum = true := hexDigit_alphanum (by omega)
    rw [← h_eq] at h_alpha
    exact absurd h_alpha (by decide)
  · have h_alpha : (hexDigit (b % 16)).isAlphanum = true := hexDigit_alphanum (by omega)
    rw [← h_eq] at h_alpha
    exact absurd h_alpha (by decide)

/-- Without the plus signs, every character that is kept stands for itself. -/
theorem map_plusToSpace_formEncode (text : List Char) :
    (formEncode text).map plusToSpace =
      percentEncode (fun c => (formKeep c).map plusToSpace) text := by
  rw [formEncode, percentEncode, percentEncode, List.map_flatMap]
  refine List.flatMap_congr fun c _ => ?_
  cases formKeep c with
  | none => exact map_plusToSpace_bytes (utf8Bytes_lt c)
  | some written => rfl

theorem decodeBytes {text : List Char} {bytes : List ℕ} (h : percentDecode text = bytes.map some) :
    (percentDecode text).map (fun byte => byte.getD 0x25) = bytes := by
  rw [h, List.map_map]
  exact List.map_id bytes

theorem formDecode_encode (text : List Char) : formDecode (formEncode text) = text := by
  have h_bytes : percentDecode (percentEncode (fun c => (formKeep c).map plusToSpace) text) =
      (utf8 text).map some := by
    refine percentDecode_encode (fun c written h => ?_) text
    obtain ⟨kept, h_keep, rfl⟩ := Option.map_eq_some_iff.mp h
    obtain ⟨rfl, rfl⟩ | ⟨-, rfl, h_c⟩ := formKeep_eq h_keep
    · exact ⟨rfl, by decide⟩
    · have h_not : kept ≠ '%' ∧ kept ≠ '+' := by
        constructor
        · rintro rfl
          exact absurd h_c (by decide)
        · rintro rfl
          exact absurd h_c (by decide)
      exact ⟨if_neg h_not.2, h_not.1⟩
  rw [formDecode, map_plusToSpace_formEncode, decodeBytes h_bytes]
  exact decodeLossy_utf8 text

/-- **What `encodeURIComponent` has written** is read by `URLSearchParams` as well. -/
theorem formDecode_uri (text : List Char) : formDecode (encodeURIComponent text) = text := by
  have h_plus : (encodeURIComponent text).map plusToSpace = encodeURIComponent text := by
    refine (List.map_congr_left fun c h_c => if_neg ?_).trans (List.map_id _)
    rintro rfl
    exact notMem_encodeURIComponent (by decide) (by decide) text h_c
  rw [formDecode, h_plus, decodeBytes (percentDecode_uri text)]
  exact decodeLossy_utf8 text

/-- The pairs of pieces without separators. -/
theorem searchPairs_join {pieces : List (List Char × List Char)}
    (h : ∀ piece ∈ pieces, '&' ∉ piece.1 ∧ '&' ∉ piece.2 ∧ '=' ∉ piece.1 ∧ piece.1.head? ≠ some '?') :
    searchPairs (join '&' (pieces.map fun piece => piece.1 ++ '=' :: piece.2)) =
      pieces.map fun piece => (formDecode piece.1, formDecode piece.2) := by
  cases pieces with
  | nil => rfl
  | cons first rest =>
    have h_plain : ∀ text ∈ (first :: rest).map fun piece => piece.1 ++ '=' :: piece.2,
        '&' ∉ text ∧ text ≠ [] := by
      intro text h_text
      obtain ⟨piece, h_piece, rfl⟩ := List.mem_map.mp h_text
      obtain ⟨h_name, h_value, -⟩ := h piece h_piece
      refine ⟨fun h_mem => ?_, by simp⟩
      obtain h_mem | h_mem := List.mem_append.mp h_mem
      · exact h_name h_mem
      · exact h_value (List.mem_of_ne_of_mem (by decide) h_mem)
    have h_head : (join '&' ((first :: rest).map fun piece => piece.1 ++ '=' :: piece.2)).head? ≠
        some '?' := by
      have h_first : ∀ tail : List Char, (first.1 ++ '=' :: tail).head? ≠ some '?' := by
        intro tail
        cases h_name : first.1 with
        | nil => simp
        | cons c name =>
          have h_c := (h first List.mem_cons_self).2.2.2
          rw [h_name] at h_c
          exact h_c
      cases rest with
      | nil =>
        rw [List.map_singleton, join_singleton]
        exact h_first _
      | cons next rest =>
        rw [List.map_cons, List.map_cons, join_cons_cons, List.append_assoc, List.cons_append]
        exact h_first _
    rw [searchPairs, if_neg h_head, splitOn_join (by simp) fun text h_text => (h_plain text h_text).1,
      List.filter_eq_self.mpr fun text h_text => decide_eq_true (h_plain text h_text).2, List.map_map]
    refine List.map_congr_left fun piece h_piece => ?_
    have h_split : splitFirst '=' (piece.1 ++ '=' :: piece.2) = some (piece.1, piece.2) :=
      splitFirst_eq_some.mpr ⟨rfl, (h piece h_piece).2.2.1⟩
    simp only [Function.comp_apply, h_split]

/-- **A query is read back.** -/
theorem searchPairs_text (pairs : List (List Char × List Char)) :
    searchPairs (searchText pairs) = pairs := by
  have h_pieces : searchText pairs = join '&' ((pairs.map fun pair =>
      (formEncode pair.1, formEncode pair.2)).map fun piece => piece.1 ++ '=' :: piece.2) := by
    rw [List.map_map]
    rfl
  rw [h_pieces, searchPairs_join, List.map_map]
  · refine (List.map_congr_left fun pair _ => ?_).trans (List.map_id _)
    exact Prod.ext (formDecode_encode pair.1) (formDecode_encode pair.2)
  · intro piece h_piece
    obtain ⟨pair, -, rfl⟩ := List.mem_map.mp h_piece
    refine ⟨notMem_formEncode (by decide) (by decide) (by decide) _,
      notMem_formEncode (by decide) (by decide) (by decide) _,
      notMem_formEncode (by decide) (by decide) (by decide) _, fun h_head => ?_⟩
    exact notMem_formEncode (by decide) (by decide) (by decide) pair.1 (List.mem_of_head? h_head)

end Framework
