import ServerCentral.Http.Wire

/-!
# The client's multipart body

`multipartBody`, and the encoding a browser gives to the `FormData` it builds. The header
block of an encoded part reads back as the name of the part (`partName_header`), and the
whole body is cut by its delimiters into exactly its entries (`wirePart_encodeForm`).
-/

open Framework

namespace ServerCentral.Http

/-- A `Blob` or `File`: its type holds printable ASCII characters only. -/
structure ClientPart where
  filename : String
  type : String
  bytes : Bytes
  printable : ∀ c ∈ type.toList, ' ' ≤ c ∧ c ≤ '~'

inductive PayloadValue where
  | json (value : Json)
  | binary (part : ClientPart)

inductive FormEntry where
  | text (value : String)
  | file (part : ClientPart)

/-- The binary fields of a payload, in order. -/
def binaryFields (data : Table String PayloadValue) : List (String × ClientPart) :=
  data.entries.filterMap fun e =>
    match e.2 with
    | .binary part => some (e.1, part)
    | .json _ => none

/-- The other fields. -/
def jsonFields (data : Table String PayloadValue) : List (String × Json) :=
  let binaryNames := (binaryFields data).map Prod.fst
  data.entries.filterMap fun e =>
    if e.1 ∈ binaryNames then none
    else
      match e.2 with
      | .json value => some (e.1, value)
      | .binary _ => none

/-- What the meta part declares of a binary field. -/
def specOf (e : String × ClientPart) : Json :=
  .obj [("name", .str e.1), ("size", .num (.finite e.2.bytes.length)), ("type", .str e.2.type)]

def metaOf (data : Table String PayloadValue) : Json :=
  .obj [("fields", .obj (jsonFields data)), ("binary", .arr ((binaryFields data).map specOf))]

def multipartBody (stringify : Json → String) (data : Table String PayloadValue) :
    Table String FormEntry :=
  (binaryFields data).foldl (fun form e => form.set e.1 (.file e.2))
    (Table.empty.set MULTIPART_META_FIELD (.text (stringify (metaOf data))))

/-! ### The encoding -/

/-- Each line end becomes CRLF. -/
def normalizeNewlines : List Char → List Char
  | [] => []
  | '\r' :: '\n' :: cs => '\r' :: '\n' :: normalizeNewlines cs
  | c :: cs =>
    if c = '\r' ∨ c = '\n' then '\r' :: '\n' :: normalizeNewlines cs
    else c :: normalizeNewlines cs

/-- The quoting of names in a header. -/
def escape (cs : List Char) : List Char :=
  cs.flatMap fun c =>
    if c = '\n' then ['%', '0', 'A']
    else if c = '\r' then ['%', '0', 'D']
    else if c = '"' then ['%', '2', '2']
    else [c]

def disposition (name : String) : List Char :=
  "Content-Disposition: form-data; name=\"".toList ++
    (escape (normalizeNewlines name.toList) ++ ['"'])

/-- The header block of an entry. -/
def headerText (name : String) : FormEntry → List Char
  | .text _ => disposition name
  | .file part => disposition name ++ ("; filename=\"".toList ++ (escape part.filename.toList ++
      ('"' :: '\r' :: '\n' :: ("Content-Type: ".toList ++
        (if part.type = "" then "application/octet-stream".toList else part.type.toList)))))

def entryHeader (name : String) (entry : FormEntry) : Bytes :=
  utf8 (String.ofList (headerText name entry))

def entryContent : FormEntry → Bytes
  | .text value => utf8 (String.ofList (normalizeNewlines value.toList))
  | .file part => part.bytes

def encodeEntry (boundary name : String) (entry : FormEntry) : Bytes :=
  dashBoundary boundary ++ (CRLF ++ (entryHeader name entry ++ (CRLF_CRLF ++
    (entryContent entry ++ CRLF))))

def encodeForm (boundary : String) (form : Table String FormEntry) : Bytes :=
  form.entries.flatMap (fun e => encodeEntry boundary e.1 e.2) ++
    (dashBoundary boundary ++ (DASH_DASH ++ CRLF))

/-- The header that names the boundary. -/
def formContentType (boundary : String) : String := "multipart/form-data; boundary=" ++ boundary

/-- A boundary as browsers generate them. -/
structure ClientBoundary (boundary : String) : Prop where
  length : 27 ≤ boundary.length ∧ boundary.length ≤ 70
  chars : ∀ c ∈ boundary.toList, c.isAlphanum ∨ c.toNat = 39 ∨ c = '-' ∨ c = '_'

/-! ### UTF-8 -/

theorem utf8_ofList (cs : List Char) :
    utf8 (String.ofList cs) = cs.flatMap String.utf8EncodeChar := by
  rw [utf8, String.toByteArray_ofList, List.utf8Encode]
  simp

theorem utf8_eq (s : String) : utf8 s = s.toList.flatMap String.utf8EncodeChar := by
  rw [← utf8_ofList, String.ofList_toList]

/-- Only the carriage return is encoded with the byte 13. -/
theorem notMem_utf8EncodeChar {c : Char} (h : c ≠ '\r') : 13 ∉ String.utf8EncodeChar c := by
  have h_ne : c.val.toNat ≠ 13 := fun h_eq => h (Char.ext (UInt32.toNat_inj.mp h_eq))
  have h_big : ∀ n : Nat, 128 ≤ n → n < 256 → (13 : UInt8) ≠ UInt8.ofNat n := by
    intro n h_le h_lt h_eq
    have h_nat := congrArg UInt8.toNat h_eq
    rw [UInt8.toNat_ofNat', Nat.mod_eq_of_lt h_lt] at h_nat
    have h_13 : (13 : UInt8).toNat = 13 := rfl
    omega
  have h_val : c.val.toNat < 0x110000 := by
    obtain h_lt | ⟨-, h_lt⟩ := c.valid <;> omega
  unfold String.utf8EncodeChar
  dsimp only
  split
  · next h_small =>
    rw [List.mem_singleton]
    intro h_eq
    have h_nat := congrArg UInt8.toNat h_eq
    rw [UInt8.toNat_ofNat', Nat.mod_eq_of_lt (by omega)] at h_nat
    exact h_ne h_nat.symm
  · split
    · simp only [List.mem_cons, List.not_mem_nil, or_false, not_or]
      exact ⟨h_big _ (by omega) (by omega), h_big _ (by omega) (by omega)⟩
    · split
      · simp only [List.mem_cons, List.not_mem_nil, or_false, not_or]
        exact ⟨h_big _ (by omega) (by omega), h_big _ (by omega) (by omega),
          h_big _ (by omega) (by omega)⟩
      · simp only [List.mem_cons, List.not_mem_nil, or_false, not_or]
        exact ⟨h_big _ (by omega) (by omega), h_big _ (by omega) (by omega),
          h_big _ (by omega) (by omega), h_big _ (by omega) (by omega)⟩

theorem notMem_utf8 {cs : List Char} (h : '\r' ∉ cs) : 13 ∉ utf8 (String.ofList cs) := by
  rw [utf8_ofList, List.mem_flatMap]
  rintro ⟨c, h_c, h_mem⟩
  exact notMem_utf8EncodeChar (fun h_eq => h (h_eq ▸ h_c)) h_mem

/-- Decoding an encoded text without a byte order mark. -/
theorem decode_utf8 (rt : Runtime) {s : String} (h : s.toList.head? ≠ some '\uFEFF') :
    rt.decode (utf8 s) = s := by
  have h_bytes : (⟨(utf8 s).toArray⟩ : ByteArray) = s.toByteArray := by
    simp [utf8]
  have h_decode : String.fromUTF8? s.toByteArray = some s := by
    rw [String.fromUTF8?, dif_pos s.isValidUTF8]
    rfl
  rw [Runtime.decode, h_bytes, h_decode]
  exact if_neg h

/-! ### Headers -/

/-- A name that needs no quoting. -/
structure PlainName (name : String) : Prop where
  quote : '"' ∉ name.toList
  cr : '\r' ∉ name.toList
  lf : '\n' ∉ name.toList

theorem normalizeNewlines_self {cs : List Char} (h_cr : '\r' ∉ cs) (h_lf : '\n' ∉ cs) :
    normalizeNewlines cs = cs := by
  induction cs with
  | nil => rfl
  | cons c cs ih =>
    rw [List.mem_cons, not_or] at h_cr h_lf
    rw [normalizeNewlines, ih h_cr.2 h_lf.2, if_neg]
    · rintro (rfl | rfl)
      · exact h_cr.1 rfl
      · exact h_lf.1 rfl
    · rintro cs' rfl
      exact absurd rfl h_cr.1

theorem escape_self {cs : List Char} (h_quote : '"' ∉ cs) (h_cr : '\r' ∉ cs) (h_lf : '\n' ∉ cs) :
    escape cs = cs := by
  induction cs with
  | nil => rfl
  | cons c cs ih =>
    rw [List.mem_cons, not_or] at h_quote h_cr h_lf
    have h_head : escape (c :: cs) = [c] ++ escape cs := by
      rw [escape, List.flatMap_cons, if_neg (Ne.symm h_lf.1), if_neg (Ne.symm h_cr.1),
        if_neg (Ne.symm h_quote.1), escape]
    rw [h_head, ih h_quote.2 h_cr.2 h_lf.2]
    rfl

/-- A quoted name breaks no line. -/
theorem escape_clean (cs : List Char) : '\r' ∉ escape cs := by
  rw [escape, List.mem_flatMap]
  rintro ⟨c, -, h_mem⟩
  split at h_mem
  · simp at h_mem
  · split at h_mem
    · simp at h_mem
    · next h_cr =>
      split at h_mem
      · simp at h_mem
      · exact h_cr (List.mem_singleton.mp h_mem).symm

theorem lines_of_notMem {cs : List Char} (h : '\r' ∉ cs) : lines cs = [cs] := by
  induction cs with
  | nil => rfl
  | cons c cs ih =>
    rw [List.mem_cons, not_or] at h
    rw [lines, ih h.2]
    rintro cs' rfl
    exact absurd rfl h.1

theorem lines_append {a : List Char} (h : '\r' ∉ a) (b : List Char) :
    lines (a ++ '\r' :: '\n' :: b) = a :: lines b := by
  induction a with
  | nil => rfl
  | cons c cs ih =>
    rw [List.mem_cons, not_or] at h
    rw [List.cons_append, lines, ih h.2]
    rintro cs' rfl
    exact absurd rfl h.1

/-- The search for a parameter starts at a semicolon. -/
theorem parameter_skip (word : List Char) (q : List Char → Option (List Char)) {a : List Char}
    (h : ';' ∉ a) (b : List Char) : parameter word q (a ++ b) = parameter word q b := by
  induction a with
  | nil => rfl
  | cons c cs ih =>
    rw [List.mem_cons, not_or] at h
    rw [List.cons_append, parameter, if_neg (Ne.symm h.1), ih h.2]

theorem quoted_append {a : List Char} (h : '"' ∉ a) (b : List Char) :
    quoted ('"' :: (a ++ '"' :: b)) = some a := by
  have h_take : (a ++ '"' :: b).takeWhile (· ≠ '"') = a := by
    rw [List.takeWhile_append_of_pos]
    · simp
    · intro c h_c
      exact decide_eq_true fun h_eq => h (h_eq ▸ h_c)
  rw [quoted, if_pos (by simp), h_take]

/-! The fixed texts, as characters. -/

theorem dispositionText : "Content-Disposition: form-data; name=\"".toList =
    ['C', 'o', 'n', 't', 'e', 'n', 't', '-', 'D', 'i', 's', 'p', 'o', 's', 'i', 't', 'i', 'o', 'n',
      ':', ' ', 'f', 'o', 'r', 'm', '-', 'd', 'a', 't', 'a'] ++
        [';', ' ', 'n', 'a', 'm', 'e', '=', '"'] :=
  String.toList_ofList

theorem dispositionWord : "content-disposition".toList =
    ['c', 'o', 'n', 't', 'e', 'n', 't', '-', 'd', 'i', 's', 'p', 'o', 's', 'i', 't', 'i', 'o',
      'n'] :=
  String.toList_ofList

theorem nameWord : "name=".toList = ['n', 'a', 'm', 'e', '='] := String.toList_ofList

/-- A parameter whose value is quoted. -/
theorem parameter_quoted {name : List Char} (h : '"' ∉ name) (rest : List Char) :
    parameter ['n', 'a', 'm', 'e', '='] quoted
      ([';', ' ', 'n', 'a', 'm', 'e', '=', '"'] ++ (name ++ '"' :: rest)) = some name := by
  have h_drop : dropWord ['n', 'a', 'm', 'e', '=']
      (List.dropWhile isSpace ([' ', 'n', 'a', 'm', 'e', '=', '"'] ++ (name ++ '"' :: rest))) =
        some ('"' :: (name ++ '"' :: rest)) := rfl
  rw [List.cons_append, parameter, if_pos rfl, h_drop, Option.bind_some, quoted_append h]
  rfl

/-- The line that names a part. -/
theorem parameter_disposition {name : List Char} (h : '"' ∉ name) (rest : List Char) :
    isDisposition ("Content-Disposition: form-data; name=\"".toList ++ (name ++ '"' :: rest)) = true ∧
      parameter "name=".toList quoted
        ("Content-Disposition: form-data; name=\"".toList ++ (name ++ '"' :: rest)) = some name := by
  rw [isDisposition, dispositionText, dispositionWord, nameWord, List.append_assoc]
  refine ⟨rfl, ?_⟩
  rw [parameter_skip _ _ (by decide), parameter_quoted h]

theorem notMem_disposition : '\r' ∉ "Content-Disposition: form-data; name=\"".toList := by
  simp

theorem notMem_filename : '\r' ∉ "; filename=\"".toList := by simp

/-- **The header block of an encoded part** names it. -/
theorem partName_header {name : String} (h : PlainName name) (entry : FormEntry) :
    partName (String.ofList (headerText name entry)) = some name := by
  have h_name : escape (normalizeNewlines name.toList) = name.toList := by
    rw [normalizeNewlines_self h.cr h.lf, escape_self h.quote h.cr h.lf]
  have h_line : ∀ rest, '\r' ∉ rest → '\r' ∉ disposition name ++ rest := by
    intro rest h_rest
    have h_quoted : '\r' ∉ escape (normalizeNewlines name.toList) ++ ['"'] :=
      List.not_mem_append (escape_clean _) (by decide)
    exact List.not_mem_append (List.not_mem_append notMem_disposition h_quoted) h_rest
  have h_found : ∀ (rest : List Char) (ls : List (List Char)),
      (((disposition name ++ rest) :: ls).find? isDisposition).bind (fun line =>
        (parameter "name=".toList quoted line).map String.ofList) = some name := by
    intro rest ls
    obtain ⟨h_disposition, h_parameter⟩ := parameter_disposition h.quote rest
    have h_eq : disposition name ++ rest =
        "Content-Disposition: form-data; name=\"".toList ++ (name.toList ++ '"' :: rest) := by
      unfold disposition
      generalize "Content-Disposition: form-data; name=\"".toList = start
      rw [h_name, List.append_assoc, List.append_assoc, List.singleton_append]
    rw [h_eq, List.find?_cons_of_pos h_disposition, Option.bind_some, h_parameter,
      Option.map_some, String.ofList_toList]
  rw [partName, String.toList_ofList]
  cases entry with
  | text value =>
    have h_single := lines_of_notMem (h_line [] List.not_mem_nil)
    rw [List.append_nil] at h_single
    rw [headerText, h_single]
    have h_list := h_found [] []
    rwa [List.append_nil] at h_list
  | file part =>
    have h_split : headerText name (.file part) = (disposition name ++
        ("; filename=\"".toList ++ (escape part.filename.toList ++ ['"']))) ++
          '\r' :: '\n' :: ("Content-Type: ".toList ++ (if part.type = "" then
            "application/octet-stream".toList else part.type.toList)) := by
      dsimp only [headerText]
      generalize "; filename=\"".toList = filename
      generalize ("Content-Type: ".toList ++
        if part.type = "" then "application/octet-stream".toList else part.type.toList) = type
      rw [List.append_assoc, List.append_assoc, List.append_assoc, List.singleton_append]
    rw [h_split, lines_append (h_line _ ?_)]
    · exact h_found _ _
    · exact List.not_mem_append notMem_filename
        (List.not_mem_append (escape_clean _) (by decide))

/-! ### The boundary -/

/-- The characters of a boundary mean nothing in a header. -/
theorem boundaryChar {c : Char} (h : c.isAlphanum ∨ c.toNat = 39 ∨ c = '-' ∨ c = '_') :
    c ≠ ';' ∧ c ≠ '"' ∧ c ≠ '\r' ∧ isSpace c = false := by
  have h_range : 39 ≤ c.toNat ∧ c.toNat ≤ 122 ∧ c.toNat ≠ 59 := by
    obtain h | h | rfl | rfl := h
    · delta Char.isAlphanum Char.isAlpha Char.isUpper Char.isLower Char.isDigit at h
      simp only [Bool.or_eq_true, Bool.and_eq_true, decide_eq_true_eq, ge_iff_le,
        UInt32.le_iff_toNat_le] at h
      simp only [Char.toNat]
      have h_65 : 'A'.val.toNat = 65 := rfl
      have h_90 : 'Z'.val.toNat = 90 := rfl
      have h_97 : 'a'.val.toNat = 97 := rfl
      have h_122 : 'z'.val.toNat = 122 := rfl
      have h_48 : '0'.val.toNat = 48 := rfl
      have h_57 : '9'.val.toNat = 57 := rfl
      simp only [h_65, h_90, h_97, h_122, h_48, h_57] at h
      omega
    · omega
    · decide
    · decide
  refine ⟨?_, ?_, ?_, ?_⟩
  · rintro rfl
    exact h_range.2.2 rfl
  · rintro rfl
    exact absurd h_range.1 (by decide)
  · rintro rfl
    exact absurd h_range.1 (by decide)
  · rw [isSpace, Bool.or_eq_false_iff, Bool.and_eq_false_iff]
    refine ⟨decide_eq_false fun h_mem => ?_, .inl (decide_eq_false fun h_le => ?_)⟩
    · simp only [List.mem_cons, List.not_mem_nil, or_false] at h_mem
      obtain rfl | rfl | rfl | rfl | rfl | rfl | rfl | rfl | rfl | rfl | rfl | rfl | rfl | rfl :=
        h_mem <;> revert h_range <;> decide
    · have h_nat : 8192 ≤ c.toNat := h_le
      omega

theorem formContentTypeText : "multipart/form-data; boundary=".toList =
    ['m', 'u', 'l', 't', 'i', 'p', 'a', 'r', 't', '/', 'f', 'o', 'r', 'm', '-', 'd', 'a', 't',
      'a'] ++ [';', ' ', 'b', 'o', 'u', 'n', 'd', 'a', 'r', 'y', '='] :=
  String.toList_ofList

theorem formDataWord : "multipart/form-data".toList =
    ['m', 'u', 'l', 't', 'i', 'p', 'a', 'r', 't', '/', 'f', 'o', 'r', 'm', '-', 'd', 'a', 't',
      'a'] :=
  String.toList_ofList

theorem boundaryWord : "boundary=".toList = ['b', 'o', 'u', 'n', 'd', 'a', 'r', 'y', '='] :=
  String.toList_ofList

namespace ClientBoundary

variable {boundary : String} (h : ClientBoundary boundary)
include h

theorem ne_nil : boundary.toList ≠ [] := by
  intro h_nil
  have h_len := h.length.1
  rw [← String.length_toList, h_nil] at h_len
  exact absurd h_len (by decide)

/-- **The content type** names the boundary. -/
theorem multipartBoundary_eq : multipartBoundary (some (formContentType boundary)) =
    some boundary := by
  have h_chars : ∀ c ∈ boundary.toList, (c ≠ ';' && !isSpace c) = true := fun c h_c => by
    obtain ⟨h_semi, -, -, h_space⟩ := boundaryChar (h.chars c h_c)
    simp [h_semi, h_space]
  have h_take : boundary.toList.takeWhile (fun c => c ≠ ';' && !isSpace c) = boundary.toList := by
    have h_all : (boundary.toList ++ []).takeWhile (fun c => c ≠ ';' && !isSpace c) =
        boundary.toList ++ [].takeWhile (fun c => c ≠ ';' && !isSpace c) :=
      List.takeWhile_append_of_pos h_chars
    rwa [List.takeWhile_nil, List.append_nil] at h_all
  have h_quoted : quotedSome boundary.toList = none := by
    cases h_list : boundary.toList with
    | nil => rfl
    | cons c cs =>
      obtain ⟨-, h_quote, -⟩ := boundaryChar (h.chars c (by rw [h_list]; exact List.mem_cons_self))
      have h_none : quoted (c :: cs) = none := by
        unfold quoted
        split
        · next h_eq => exact absurd (List.cons.inj h_eq).1 h_quote
        · rfl
      rw [quotedSome, h_none]
      rfl
  have h_bare : bare boundary.toList = some boundary.toList := by
    rw [bare, h_take]
    exact if_neg h.ne_nil
  have h_parameter : parameter ['b', 'o', 'u', 'n', 'd', 'a', 'r', 'y', '='] quotedSome
      ([';', ' ', 'b', 'o', 'u', 'n', 'd', 'a', 'r', 'y', '='] ++ boundary.toList) =
        some boundary.toList := by
    have h_drop : dropWord ['b', 'o', 'u', 'n', 'd', 'a', 'r', 'y', '=']
        (List.dropWhile isSpace ([' ', 'b', 'o', 'u', 'n', 'd', 'a', 'r', 'y', '='] ++
          boundary.toList)) = some boundary.toList := rfl
    rw [List.cons_append, parameter, if_pos rfl, h_drop, Option.bind_some, h_quoted, h_bare]
    rfl
  have h_list : (formContentType boundary).toList =
      ['m', 'u', 'l', 't', 'i', 'p', 'a', 'r', 't', '/', 'f', 'o', 'r', 'm', '-', 'd', 'a', 't',
        'a'] ++ ([';', ' ', 'b', 'o', 'u', 'n', 'd', 'a', 'r', 'y', '='] ++ boundary.toList) :=
    String.toList_append.trans (by rw [formContentTypeText, List.append_assoc])
  have h_word : (dropWord "multipart/form-data".toList (formContentType boundary).toList).isSome =
      true := by
    rw [formDataWord, h_list]
    rfl
  rw [multipartBoundary, Option.bind_some, if_pos h_word, boundaryWord, h_list,
    parameter_skip _ _ (by decide), h_parameter, Option.map_some, String.ofList_toList]
  refine Option.filter_some_pos (decide_eq_true fun h_eq => h.ne_nil ?_)
  rw [h_eq]
  rfl

theorem notMem_cr : 13 ∉ 10 :: dashBoundary boundary := by
  have h_utf8 : 13 ∉ utf8 boundary := by
    rw [← String.ofList_toList (s := boundary)]
    exact notMem_utf8 fun h_mem => (boundaryChar (h.chars _ h_mem)).2.2.1 rfl
  simp only [dashBoundary, DASH_DASH, List.mem_cons, List.mem_append, List.not_mem_nil, or_false,
    not_or]
  exact ⟨by decide, ⟨by decide, by decide⟩, h_utf8⟩

/-- A body that does not contain the delimiter ends at it. -/
theorem cut_content {content : Bytes} (h_content : ¬bodyDelimiter boundary <:+: content)
    (rest : Bytes) :
    cut (bodyDelimiter boundary) (content ++ (bodyDelimiter boundary ++ rest)) =
      some (content, rest) :=
  cut_of_unbordered h.notMem_cr h_content rest

end ClientBoundary

/-! ### The parts of an encoded form -/

/-- What follows an opening delimiter in an encoded form. -/
def afterDash (boundary : String) : List (String × FormEntry) → Bytes
  | [] => DASH_DASH ++ CRLF
  | e :: es => CRLF ++ (entryHeader e.1 e.2 ++ (CRLF_CRLF ++ (entryContent e.2 ++
      (bodyDelimiter boundary ++ afterDash boundary es))))

theorem encodeForm_eq (boundary : String) (form : Table String FormEntry) :
    encodeForm boundary form = dashBoundary boundary ++ afterDash boundary form.entries := by
  rw [encodeForm]
  induction form.entries with
  | nil => rfl
  | cons e es ih =>
    rw [List.flatMap_cons, List.append_assoc, ih, encodeEntry, afterDash, bodyDelimiter]
    simp only [List.append_assoc]

/-- An entry whose name needs no quoting and whose content does not contain the delimiter. -/
structure GoodEntry (boundary : String) (e : String × FormEntry) : Prop where
  name : PlainName e.1
  content : ¬bodyDelimiter boundary <:+: entryContent e.2

/-- A header block of two lines ends at the first blank line. -/
theorem cut_header {a b : Bytes} (h_a : 13 ∉ a) (h_b : 13 ∉ b) (h_ne : b ≠ []) (rest : Bytes) :
    cut CRLF_CRLF ((a ++ (CRLF ++ b)) ++ (CRLF_CRLF ++ rest)) =
      some (a ++ (CRLF ++ b), rest) := by
  refine (cut_eq_some_iff CRLF_CRLF_ne_nil).mpr ⟨rfl, fun j h_j h_occurs => ?_⟩
  obtain ⟨c, b, rfl⟩ := List.exists_cons_of_ne_nil h_ne
  have h_c : c ≠ 13 := fun h_eq => h_b (h_eq ▸ List.mem_cons_self)
  obtain ⟨tail, h_tail⟩ := occursAt_iff.mp h_occurs
  have h_get : ∀ i, (((a ++ (CRLF ++ c :: b)) ++ (CRLF_CRLF ++ rest)))[j + i]? =
      (CRLF_CRLF ++ tail)[i]? := fun i => by
    rw [← h_tail, List.getElem?_drop]
  have h_zero := h_get 0
  have h_two := h_get 2
  rw [List.getElem?_append_left (by simpa using h_j)] at h_zero
  by_cases h_first : j < a.length
  · rw [Nat.add_zero, List.getElem?_append_left h_first] at h_zero
    exact h_a (List.mem_of_getElem? h_zero)
  · rw [Nat.add_zero, List.getElem?_append_right (by omega)] at h_zero
    obtain h_eq | h_eq | h_gt : j = a.length ∨ j = a.length + 1 ∨ a.length + 2 ≤ j := by omega
    · -- the third element is the first of the second line
      subst h_eq
      rw [List.append_assoc, List.getElem?_append_right (by omega)] at h_two
      have h_two' : some c = some 13 := by simpa [CRLF, CRLF_CRLF] using h_two
      exact h_c (Option.some.inj h_two')
    · rw [h_eq] at h_zero
      simp [CRLF, CRLF_CRLF] at h_zero
    · have h_mem : (CRLF ++ c :: b)[j - a.length]? = (c :: b)[j - a.length - 2]? := by
        rw [List.getElem?_append_right (by simp [CRLF]; omega)]
        rfl
      rw [h_mem] at h_zero
      exact h_b (List.mem_of_getElem? h_zero)

theorem utf8_append (a b : List Char) :
    utf8 (String.ofList (a ++ b)) = utf8 (String.ofList a) ++ utf8 (String.ofList b) := by
  rw [utf8_ofList, utf8_ofList, utf8_ofList, List.flatMap_append]

/-- The first line of a header block. -/
theorem notMem_disposition_line (name : String) : '\r' ∉ disposition name :=
  List.not_mem_append notMem_disposition (List.not_mem_append (escape_clean _) (by decide))

theorem notMem_contentType (part : ClientPart) : '\r' ∉ "Content-Type: ".toList ++
    (if part.type = "" then "application/octet-stream".toList else part.type.toList) := by
  refine List.not_mem_append (by decide) ?_
  split
  · decide
  · intro h_mem
    exact absurd (part.printable _ h_mem).1 (by decide)

/-- The header block of an entry ends at the blank line after it. -/
theorem cut_entryHeader (name : String) (entry : FormEntry) (rest : Bytes) :
    cut CRLF_CRLF (entryHeader name entry ++ (CRLF_CRLF ++ rest)) =
      some (entryHeader name entry, rest) := by
  cases entry with
  | text value => exact cut_of_notMem (notMem_utf8 (notMem_disposition_line name)) rest
  | file part =>
    have h_lines : entryHeader name (.file part) =
        utf8 (String.ofList (disposition name ++
          ("; filename=\"".toList ++ (escape part.filename.toList ++ ['"'])))) ++
          (CRLF ++ utf8 (String.ofList ("Content-Type: ".toList ++ (if part.type = "" then
            "application/octet-stream".toList else part.type.toList)))) := by
      have h_crlf : CRLF = utf8 (String.ofList ['\r', '\n']) := by decide
      rw [h_crlf, ← utf8_append, ← utf8_append, entryHeader]
      congr 2
      dsimp only [headerText]
      generalize "; filename=\"".toList = filename
      generalize ("Content-Type: ".toList ++
        if part.type = "" then "application/octet-stream".toList else part.type.toList) = type
      rw [List.append_assoc, List.append_assoc, List.append_assoc, List.singleton_append,
        List.cons_append, List.cons_append, List.nil_append]
    rw [h_lines]
    refine cut_header (notMem_utf8 ?_) (notMem_utf8 (notMem_contentType part)) ?_ rest
    · exact List.not_mem_append (notMem_disposition_line name)
        (List.not_mem_append notMem_filename (List.not_mem_append (escape_clean _) (by decide)))
    · rw [utf8_append]
      intro h_nil
      exact absurd (List.append_eq_nil_iff.mp h_nil).1 (by decide)

theorem head_headerText (name : String) (entry : FormEntry) :
    (headerText name entry).head? = some 'C' := by
  have h_start : ∀ rest, ("Content-Disposition: form-data; name=\"".toList ++ rest).head? =
      some 'C' := by
    intro rest
    rw [dispositionText]
    rfl
  cases entry with
  | text value => exact h_start _
  | file part =>
    dsimp only [headerText, disposition]
    generalize ("; filename=\"".toList ++ _) = rest
    rw [List.append_assoc]
    exact h_start _

/-- **An encoded part** opens under its name, and its content follows. -/
theorem afterDash_opens (rt : Runtime) (boundary : String) {e : String × FormEntry}
    (es : List (String × FormEntry)) (h : PlainName e.1) :
    OpensTo rt (afterDash boundary (e :: es)) e.1
      (entryContent e.2 ++ (bodyDelimiter boundary ++ afterDash boundary es)) := by
  refine ⟨rfl, entryHeader e.1 e.2, cut_entryHeader e.1 e.2 _, ?_⟩
  have h_decode : rt.decode (entryHeader e.1 e.2) = String.ofList (headerText e.1 e.2) := by
    refine decode_utf8 rt ?_
    rw [String.toList_ofList, head_headerText]
    decide
  rw [h_decode, partName_header h]

/-- The header block of the first part that follows. -/
theorem afterDash_header (boundary : String) (e : String × FormEntry)
    (es : List (String × FormEntry)) :
    cut CRLF_CRLF ((afterDash boundary (e :: es)).drop 2) = some (entryHeader e.1 e.2,
      entryContent e.2 ++ (bodyDelimiter boundary ++ afterDash boundary es)) :=
  cut_entryHeader e.1 e.2 _

theorem wirePart_afterDash {boundary : String} (h_boundary : ClientBoundary boundary)
    {e : String × FormEntry} (es : List (String × FormEntry)) (h : GoodEntry boundary e) :
    readWirePart boundary (afterDash boundary (e :: es)) =
      some ⟨entryHeader e.1 e.2, entryContent e.2, some (afterDash boundary es)⟩ := by
  have h_marker : (afterDash boundary (e :: es)).take 2 = CRLF := rfl
  rw [readWirePart, if_pos h_marker, afterDash_header, Option.map_some,
    h_boundary.cut_content h.content]

/-- **An encoded form** is cut into its entries. -/
theorem wireTail_encodeForm {boundary : String} (h_boundary : ClientBoundary boundary)
    {form : Table String FormEntry} (h_good : ∀ e ∈ form.entries, GoodEntry boundary e) {k : Nat}
    (h_k : k < form.entries.length) :
    wireTail boundary (encodeForm boundary form) k =
      some (afterDash boundary (form.entries.drop (k + 1))) := by
  have h_dash : cut (dashBoundary boundary) (encodeForm boundary form) =
      some ([], afterDash boundary form.entries) := by
    rw [encodeForm_eq]
    refine (cut_eq_some_iff (dashBoundary_ne_nil boundary)).mpr ⟨rfl, fun j h_j => ?_⟩
    exact absurd h_j (Nat.not_lt_zero _)
  induction k with
  | zero =>
    obtain ⟨e, es, h_entries⟩ := List.exists_cons_of_length_pos h_k
    rw [wireTail, wirePart, h_dash, Option.bind_some, h_entries,
      wirePart_afterDash h_boundary es (h_good e (by rw [h_entries]; exact List.mem_cons_self)),
      Option.bind_some]
    rfl
  | succ k ih =>
    have h_tail := ih (Nat.lt_of_succ_lt h_k)
    have h_drop : form.entries.drop (k + 1) =
        form.entries[k + 1] :: form.entries.drop (k + 2) := List.drop_eq_getElem_cons h_k
    rw [h_drop] at h_tail
    rw [wireTail, wirePart_succ h_tail,
      wirePart_afterDash h_boundary _ (h_good _ (List.getElem_mem h_k)), Option.bind_some]

end ServerCentral.Http
