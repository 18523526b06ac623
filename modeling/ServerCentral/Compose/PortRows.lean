import ServerCentral.Compose.VolumeRows

/-!
# The rows of ports

An entry of `ports` is a number, a text `[HOST:]CONTAINER[/PROTOCOL]` or a map. The editor takes
the texts apart that have plain port numbers, and the maps that have no fields beside the four it
shows; what else an author may write stays `raw`.

`keepsPort` says that a row that is written back means what the entry meant, and is parsed to the
same row again.
-/

open Framework

namespace ServerCentral.Compose

/-! ### The source -/

inductive RowKind where
  | short
  | long
  deriving DecidableEq

/-- Whatever stands in `protocol` and `name` is taken for a text. -/
structure PortRow where
  kind : RowKind
  published : String
  target : String
  protocol : Value
  name : Value

/-- A row that can be edited, or an entry that cannot. -/
inductive Parsed (Row : Type) where
  | row (row : Row)
  | raw (entry : Entry)

/-- `Boolean(value)` -/
def Value.truthy : Value → Bool
  | .null => false
  | .bool b => b
  | .number n => n ≠ .nan ∧ n ≠ .finite 0
  | .text s => s ≠ ""
  | .list _ => true
  | .map _ => true

/-- `value === text` -/
def Value.is (v : Value) (text : String) : Bool :=
  match v with
  | .text s => s == text
  | _ => false

def isDigits (text : List Char) : Bool := text ≠ [] && text.all (isDigitOf 10)

/-- What precedes the protocol, and the protocol. -/
def splitProtocol (entry : List Char) : List Char × List Char :=
  (splitFirst '/' entry).getD (entry, ['t', 'c', 'p'])

/-- The published port, which may be missing, and the target. -/
def shortPorts (ports : List Char) : Option (List Char × List Char) :=
  match splitFirst ':' ports with
  | some (published, target) =>
    if isDigits published && isDigits target then some (published, target) else none
  | none => if isDigits ports then some ([], ports) else none

/-- `SHORT_PORT_RE` -/
def shortPort (entry : List Char) : Option (List Char × List Char × List Char) :=
  let (ports, protocol) := splitProtocol entry
  if protocol = ['t', 'c', 'p'] ∨ protocol = ['u', 'd', 'p'] then
    (shortPorts ports).map fun (published, target) => (published, target, protocol)
  else none

def Value.isNull : Value → Bool
  | .null => true
  | _ => false

mutual

/-- `String(value)` -/
def Value.string : Value → String
  | .null => "null"
  | .bool b => if b then "true" else "false"
  | .number n => String.ofList (numberText n)
  | .text s => s
  | .list items => Value.joined items
  | .map _ => "[object Object]"

/-- `items.join(",")`, to which a null adds nothing. -/
def Value.joined : List Value → String
  | [] => ""
  | v :: rest =>
    (if v.isNull then "" else v.string) ++ (if rest.isEmpty then "" else "," ++ Value.joined rest)

end

/-- `o.field !== undefined ? String(o.field) : ""` -/
def fieldString (field : Option Value) : String := (field.map Value.string).getD ""

/-- `o.field ?? text` -/
def orText (field : Option Value) (text : String) : Value :=
  match field with
  | none => .text text
  | some .null => .text text
  | some v => v

def portFields : List String := ["published", "target", "protocol", "name"]

def longPort (o : Table String Value) : PortRow :=
  ⟨.long, fieldString (o.get? "published"), fieldString (o.get? "target"),
    orText (o.get? "protocol") "tcp", orText (o.get? "name") ""⟩

def parsePortEntry : Entry → Parsed PortRow
  | .integer n => .row ⟨.short, "", String.ofList (wholeText n), .text "tcp", .text ""⟩
  | .text entry =>
    match shortPort entry.toList with
    | some (published, target, protocol) => .row ⟨.short, String.ofList published,
        String.ofList target, .text (String.ofList protocol), .text ""⟩
    | none => .raw (.text entry)
  | .map o =>
    if o.keys.any fun k => !portFields.contains k then .raw (.map o)
    else .row (longPort o)
  -- the keys of a list are its indices
  | .list [] => .row (longPort .empty)
  | entry => .raw entry

def longPortEntry (row : PortRow) : Table String Value :=
  let o := Table.empty.set "target" (.text row.target)
  let o := if row.published = "" then o else o.set "published" (.text row.published)
  let o := if row.protocol.is "tcp" then o else o.set "protocol" row.protocol
  if row.name.truthy then o.set "name" row.name else o

def serializePortRow : Parsed PortRow → Entry
  | .raw entry => entry
  | .row row =>
    if row.kind = .long ∨ row.name.truthy = true then .map (longPortEntry row)
    else
      let proto := if row.protocol.is "udp" then "/udp" else ""
      .text (if row.published = "" then row.target ++ proto
        else row.published ++ ":" ++ row.target ++ proto)

/-! ### What an entry means -/

structure PortMapping where
  published : String
  target : String
  protocol : String
  name : String
  others : String → Option Value

/-- How compose reads a port. A number is read like the text of it. -/
structure PortReader extends ComposeReader where
  port : Value → Option String
  port_number : ∀ x, port (.number x) = port (.text (String.ofList (numberText x)))

namespace PortReader

variable (compose : PortReader)

/-- A field that is empty is no port, like one that is missing. -/
def portField (field : Option Value) : Option String :=
  if (field.getD (.text "")).is "" then some "" else compose.port (field.getD (.text ""))

/-- A field that is a text. -/
def nameField (field : Option Value) (text : String) : Option String :=
  compose.text (field.getD (.text text))

/-- The ports of `[HOST:]CONTAINER`. -/
def shortMapping (ports protocol : List Char) : Option PortMapping :=
  let (published, target) := (splitLast ':' ports).getD ([], ports)
  (compose.portField (some (.text (String.ofList published)))).bind fun published =>
  (compose.portField (some (.text (String.ofList target)))).map fun target =>
    ⟨published, target, String.ofList protocol, "", fun _ => none⟩

def mapping : Entry → Option PortMapping
  | .integer n => (compose.portField (some (.number (.finite n)))).map fun target =>
    ⟨"", target, "tcp", "", fun _ => none⟩
  | .text entry =>
    compose.shortMapping (splitProtocol entry.toList).1 (splitProtocol entry.toList).2
  | .map o =>
    (compose.portField (o.get? "published")).bind fun published =>
    (compose.portField (o.get? "target")).bind fun target =>
    (compose.nameField (o.get? "protocol") "tcp").bind fun protocol =>
    (compose.nameField (o.get? "name") "").map fun name =>
      ⟨published, target, protocol, name, fun k => if portFields.contains k then none else o.get? k⟩
  | _ => none

/-- **What writing a row back is to keep**, up to the form of the row. -/
structure KeepsPort (e : Entry) : Prop where
  meaning : compose.mapping (serializePortRow (parsePortEntry e)) = compose.mapping e
  row : ∀ row, parsePortEntry e = .row row →
    ∃ kind, parsePortEntry (serializePortRow (.row row)) = .row { row with kind }

end PortReader

def Value.isText : Value → Prop
  | .text _ => True
  | _ => False

def Value.isPort : Value → Prop
  | .text _ => True
  | .number _ => True
  | _ => False

/-- The entries whose values are of the types that compose wants there, and whose numbers are
written plainly. -/
def PortTyped : Entry → Prop
  | .integer n => 0 ≤ n ∧ n < 10 ^ 21
  | .map o => (∀ k ∈ ["published", "target"], ∀ v, o.get? k = some v → v.isPort) ∧
    ∀ k ∈ ["protocol", "name"], ∀ v, o.get? k = some v → v.isText
  | .list items => items ≠ []
  | _ => True

/-! ### The short syntax -/

section Short

variable {ports protocol published target : List Char}

theorem notMem_of_isDigits {text : List Char} (h : isDigits text = true) {c : Char}
    (h_c : isDigitOf 10 c = false) : c ∉ text := by
  intro h_mem
  have h_all := List.all_eq_true.mp (Bool.and_eq_true_iff.mp h).2 c h_mem
  rw [h_c] at h_all
  cases h_all

/-- The text of two ports. -/
def portsText (published target : List Char) : List Char :=
  if published = [] then target else published ++ ':' :: target

theorem shortPorts_eq_some (h : shortPorts ports = some (published, target)) :
    ports = portsText published target ∧ (published ≠ [] → isDigits published = true) ∧
      isDigits target = true := by
  rw [shortPorts] at h
  cases h_split : splitFirst ':' ports with
  | none =>
    rw [h_split] at h
    dsimp only at h
    split at h
    case isFalse => cases h
    case isTrue h_digits =>
      obtain ⟨rfl, rfl⟩ := Prod.mk.inj (Option.some.inj h)
      exact ⟨rfl, fun h_ne => absurd rfl h_ne, h_digits⟩
  | some parts =>
    obtain ⟨p, t⟩ := parts
    rw [h_split] at h
    dsimp only at h
    split at h
    case isFalse => cases h
    case isTrue h_digits =>
      obtain ⟨rfl, rfl⟩ := Prod.mk.inj (Option.some.inj h)
      obtain ⟨h_p, h_t⟩ := Bool.and_eq_true_iff.mp h_digits
      have h_ne : p ≠ [] := of_decide_eq_true (Bool.and_eq_true_iff.mp h_p).1
      refine ⟨?_, fun _ => h_p, h_t⟩
      rw [portsText, if_neg h_ne]
      exact (splitFirst_eq_some.mp h_split).1

theorem notMem_portsText {c : Char} (h_c : isDigitOf 10 c = false) (h_colon : c ≠ ':')
    (h_published : published ≠ [] → isDigits published = true) (h_target : isDigits target = true) :
    c ∉ portsText published target := by
  rw [portsText]
  split
  case isTrue => exact notMem_of_isDigits h_target h_c
  case isFalse h_ne =>
    rw [List.mem_append, List.mem_cons, not_or, not_or]
    exact ⟨notMem_of_isDigits (h_published h_ne) h_c, h_colon, notMem_of_isDigits h_target h_c⟩

/-- The protocol is found again, `tcp` where nothing is written. -/
theorem splitProtocol_written (h : '/' ∉ ports)
    (h_protocol : protocol = ['t', 'c', 'p'] ∨ protocol = ['u', 'd', 'p']) :
    splitProtocol (ports ++ if protocol = ['u', 'd', 'p'] then ['/', 'u', 'd', 'p'] else [])
      = (ports, protocol) := by
  obtain rfl | rfl := h_protocol
  · have h_none : splitFirst '/' (ports ++ []) = none := by
      rw [List.append_nil]
      exact splitFirst_eq_none.mpr h
    rw [if_neg (by decide), splitProtocol, h_none]
    simp
  · have h_some : splitFirst '/' (ports ++ ['/', 'u', 'd', 'p']) = some (ports, ['u', 'd', 'p']) :=
      splitFirst_eq_some.mpr ⟨rfl, h⟩
    rw [if_pos rfl, splitProtocol, h_some]
    rfl

theorem ofList_eq_empty {text : List Char} : String.ofList text = "" ↔ text = [] := by
  rw [← String.toList_inj, String.toList_ofList]
  rfl

/-- What is written for a short row. -/
theorem serialize_short (published target : List Char) (h_protocol : protocol = ['t', 'c', 'p'] ∨ protocol = ['u', 'd', 'p']) :
    serializePortRow (.row ⟨.short, String.ofList published, String.ofList target,
      .text (String.ofList protocol), .text ""⟩) =
    .text (String.ofList (portsText published target ++
      if protocol = ['u', 'd', 'p'] then ['/', 'u', 'd', 'p'] else [])) := by
  have h_udp : (Value.text (String.ofList protocol)).is "udp" = decide (protocol = ['u', 'd', 'p']) := by
    obtain rfl | rfl := h_protocol
    · decide
    · decide
  rw [serializePortRow, if_neg (by simp [Value.truthy]), h_udp]
  dsimp only
  rw [Entry.text.injEq]
  apply String.toList_inj.mp
  by_cases h_p : published = []
  · by_cases h : protocol = ['u', 'd', 'p'] <;> simp [h_p, h, portsText]
  · by_cases h : protocol = ['u', 'd', 'p'] <;>
      simp [h_p, h, portsText]

/-- A text is written with the same ports and protocol. -/
theorem splitProtocol_serialized {entry : List Char}
    (h : shortPort entry = some (published, target, protocol)) :
    (protocol = ['t', 'c', 'p'] ∨ protocol = ['u', 'd', 'p']) ∧
      splitProtocol (portsText published target ++
        if protocol = ['u', 'd', 'p'] then ['/', 'u', 'd', 'p'] else []) = splitProtocol entry := by
  rw [shortPort] at h
  cases h_split : splitProtocol entry with
  | mk ports proto =>
    rw [h_split] at h
    dsimp only at h
    split at h
    case isFalse => cases h
    case isTrue h_protocol =>
      obtain ⟨⟨p, t⟩, h_ports, h_eq⟩ := Option.map_eq_some_iff.mp h
      cases h_eq
      obtain ⟨h_text, h_published, h_target⟩ := shortPorts_eq_some h_ports
      refine ⟨h_protocol, ?_⟩
      rw [splitProtocol_written (notMem_portsText (by decide) (by decide) h_published h_target)
        h_protocol, ← h_text]

end Short

namespace PortReader

variable (compose : PortReader)

theorem keepsPort_text (entry : String) : compose.KeepsPort (.text entry) := by
  cases h : shortPort entry.toList with
  | none =>
    have h_raw : parsePortEntry (.text entry) = .raw (.text entry) := by
      rw [parsePortEntry, h]
    exact {
      meaning := by rw [h_raw, serializePortRow]
      row := by
        intro row h_row
        rw [h_raw] at h_row
        cases h_row }
  | some parts =>
    obtain ⟨published, target, protocol⟩ := parts
    have h_row : parsePortEntry (.text entry) = .row ⟨.short, String.ofList published,
        String.ofList target, .text (String.ofList protocol), .text ""⟩ := by
      rw [parsePortEntry, h]
    obtain ⟨h_protocol, h_split⟩ := splitProtocol_serialized h
    have h_written := serialize_short published target h_protocol
    refine ⟨?_, fun row h_eq => ⟨.short, ?_⟩⟩
    · rw [h_row, h_written, mapping, mapping, String.toList_ofList, h_split]
    · obtain rfl := Parsed.row.inj (h_row.symm.trans h_eq)
      have h_again : shortPort (portsText published target ++
          if protocol = ['u', 'd', 'p'] then ['/', 'u', 'd', 'p'] else [])
            = some (published, target, protocol) := by
        rw [shortPort, h_split]
        exact h
      rw [h_written, parsePortEntry, String.toList_ofList, h_again]

theorem keepsPort_integer {n : ℤ} (h : 0 ≤ n ∧ n < 10 ^ 21) : compose.KeepsPort (.integer n) := by
  have h_digits : isDigits (wholeText n) = true :=
    Bool.and_eq_true_iff.mpr ⟨decide_eq_true (wholeText_ne_nil n), all_digits_wholeText.mpr h⟩
  have h_split : splitProtocol (wholeText n) = (wholeText n, ['t', 'c', 'p']) := by
    rw [splitProtocol, splitFirst_eq_none.mpr (notMem_of_isDigits h_digits (by decide))]
    rfl
  have h_colon : ':' ∉ wholeText n := notMem_of_isDigits h_digits (by decide)
  have h_ports : shortPorts (wholeText n) = some ([], wholeText n) := by
    rw [shortPorts, splitFirst_eq_none.mpr h_colon]
    exact if_pos h_digits
  have h_written : serializePortRow (parsePortEntry (.integer n))
      = .text (String.ofList (wholeText n)) := by
    rw [parsePortEntry, serializePortRow, if_neg (by simp [Value.truthy])]
    simp [Value.is]
  have h_split' : splitProtocol (String.ofList (wholeText n)).toList
      = (wholeText n, ['t', 'c', 'p']) := by
    rw [String.toList_ofList, h_split]
  refine ⟨?_, fun row h_row => ⟨.short, ?_⟩⟩
  · have h_some : String.ofList (wholeText n) ≠ "" :=
      fun h_empty => wholeText_ne_nil n (ofList_eq_empty.mp h_empty)
    have h_port : compose.portField (some (.text (String.ofList (wholeText n))))
        = compose.portField (some (.number (.finite n))) := by
      have h_is : (Value.text (String.ofList (wholeText n))).is "" = false :=
        beq_eq_false_iff_ne.mpr h_some
      have h_is' : (Value.number (.finite n)).is "" = false := rfl
      rw [portField, portField, Option.getD_some, Option.getD_some, h_is, h_is',
        compose.port_number, numberText_intCast]
    rw [h_written, mapping, mapping, h_split', shortMapping, splitLast_eq_none.mpr h_colon,
      ← h_port]
    rfl
  · obtain rfl := Parsed.row.inj h_row
    rw [parsePortEntry] at h_written
    rw [h_written, parsePortEntry, shortPort, h_split']
    simp [h_ports]

end PortReader

/-! ### The long syntax -/

section Long

variable {row : PortRow}

theorem get?_longPortEntry (k : String) : (longPortEntry row).get? k =
    if k = "name" ∧ row.name.truthy = true then some row.name
    else if k = "protocol" ∧ row.protocol.is "tcp" = false then some row.protocol
    else if k = "published" ∧ row.published ≠ "" then some (.text row.published)
    else if k = "target" then some (.text row.target)
    else none := by
  rw [longPortEntry]
  cases row.name.truthy <;> cases row.protocol.is "tcp" <;> by_cases h : row.published = "" <;>
    simp [h, Table.get?_set]

theorem is_iff {v : Value} {text : String} : v.is text = true ↔ v = .text text := by
  cases v with
  | text s => simp [Value.is]
  | _ => exact iff_of_false Bool.false_ne_true (by rintro ⟨⟩)

theorem orText_some {v : Value} (h : v.isNull = false) (text : String) : orText (some v) text = v := by
  cases v with
  | null => cases h
  | _ => rfl

theorem isNull_of_isText {v : Value} (h : v.isText) : v.isNull = false := by
  cases v with
  | text s => rfl
  | _ => cases h

theorem orText_isNull {field : Option Value} {text : String}
    (h : ∀ v, field = some v → v.isText) : (orText field text).isNull = false := by
  cases field with
  | none => rfl
  | some v =>
    have h_null := isNull_of_isText (h v rfl)
    rw [orText_some h_null]
    exact h_null

theorem orText_empty {field : Option Value} (h : ∀ v, field = some v → v.isText)
    (h_truthy : (orText field "").truthy = false) : orText field "" = .text "" := by
  cases field with
  | none => rfl
  | some v =>
    have h_v := h v rfl
    cases v with
    | text s => simpa [orText, Value.truthy] using h_truthy
    | _ => cases h_v

/-- A map has no fields beside those that are shown. -/
theorem shown_iff {o : Table String Value} {fields : List String} :
    (o.keys.any fun k => !fields.contains k) = false ↔
      ∀ k, ¬ fields.contains k = true → o.get? k = none := by
  rw [List.any_eq_false]
  constructor
  · intro h k h_k
    rw [Table.get?_eq_none_iff]
    intro h_mem
    exact h k h_mem (by simpa using h_k)
  · intro h k h_mem h_k
    exact Table.get?_eq_none_iff.mp (h k (by simpa using h_k)) h_mem

/-- A map that is written has no other fields. -/
theorem keys_longPortEntry :
    ((longPortEntry row).keys.any fun k => !portFields.contains k) = false := by
  rw [shown_iff]
  intro k h_k
  rw [get?_longPortEntry]
  simp only [portFields, List.contains_iff_mem, List.mem_cons, List.not_mem_nil, or_false,
    not_or] at h_k
  simp [h_k]

/-- A row is found again unless its name is neither true nor the empty text. -/
theorem longPort_longPortEntry (h_kind : row.kind = .long) (h_protocol : row.protocol.isNull = false)
    (h_name : row.name.isNull = false) (h_empty : row.name.truthy = false → row.name = .text "") :
    longPort (longPortEntry row) = row := by
  have h_published : fieldString ((longPortEntry row).get? "published") = row.published := by
    rw [get?_longPortEntry]
    by_cases h : row.published = "" <;> simp [h, fieldString, Value.string]
  have h_target : fieldString ((longPortEntry row).get? "target") = row.target := by
    rw [get?_longPortEntry]
    simp [fieldString, Value.string]
  have h_protocol' : orText ((longPortEntry row).get? "protocol") "tcp" = row.protocol := by
    rw [get?_longPortEntry]
    cases h : row.protocol.is "tcp" with
    | true =>
      rw [(is_iff).mp h]
      rfl
    | false => simpa using orText_some h_protocol "tcp"
  have h_name' : orText ((longPortEntry row).get? "name") "" = row.name := by
    rw [get?_longPortEntry]
    cases h : row.name.truthy with
    | true => simpa using orText_some h_name ""
    | false =>
      rw [h_empty h]
      rfl
  rw [longPort, h_published, h_target, h_protocol', h_name', ← h_kind]

end Long

namespace PortReader

variable (compose : PortReader)

theorem portField_none : compose.portField none = some "" := rfl

theorem portField_empty : compose.portField (some (.text "")) = some "" := rfl

/-- A text or a number is read like its text. -/
theorem portField_string {field : Option Value} (h : ∀ v, field = some v → v.isPort) :
    compose.portField (some (.text (fieldString field))) = compose.portField field := by
  cases field with
  | none => rfl
  | some v =>
    have h_v := h v rfl
    cases v with
    | text s => rfl
    | number x =>
      have h_is : (Value.text (String.ofList (numberText x))).is "" = false :=
        beq_eq_false_iff_ne.mpr fun h_empty => numberText_ne_nil x (ofList_eq_empty.mp h_empty)
      have h_is' : (Value.number x).is "" = false := rfl
      rw [fieldString, Option.map_some, Option.getD_some, Value.string, portField, portField,
        Option.getD_some, Option.getD_some, h_is, h_is', compose.port_number]
    | _ => cases h_v

theorem nameField_orText {field : Option Value} (h : ∀ v, field = some v → v.isText)
    {text : String} : compose.nameField field text = compose.text (orText field text) := by
  cases field with
  | none => rfl
  | some v => rw [orText_some (isNull_of_isText (h v rfl)), nameField, Option.getD_some]

section Written

variable {o : Table String Value}

theorem published_written (h : ∀ v, o.get? "published" = some v → v.isPort) :
    compose.portField ((longPortEntry (longPort o)).get? "published")
      = compose.portField (o.get? "published") := by
  rw [get?_longPortEntry, ← compose.portField_string h]
  by_cases h_empty : (longPort o).published = ""
  · have h_field : fieldString (o.get? "published") = "" := h_empty
    simp [h_empty, h_field, portField_none, portField_empty]
  · have h_field : fieldString (o.get? "published") ≠ "" := h_empty
    simp [h_field, longPort]

theorem target_written (h : ∀ v, o.get? "target" = some v → v.isPort) :
    compose.portField ((longPortEntry (longPort o)).get? "target")
      = compose.portField (o.get? "target") := by
  rw [get?_longPortEntry, ← compose.portField_string h]
  simp [longPort]

theorem protocol_written (h : ∀ v, o.get? "protocol" = some v → v.isText) :
    compose.nameField ((longPortEntry (longPort o)).get? "protocol") "tcp"
      = compose.nameField (o.get? "protocol") "tcp" := by
  rw [get?_longPortEntry, compose.nameField_orText h]
  cases h_tcp : (longPort o).protocol.is "tcp" with
  | true =>
    have h_protocol : orText (o.get? "protocol") "tcp" = .text "tcp" := (is_iff).mp h_tcp
    rw [h_protocol]
    rfl
  | false => rfl

theorem name_written (h : ∀ v, o.get? "name" = some v → v.isText) :
    compose.nameField ((longPortEntry (longPort o)).get? "name") ""
      = compose.nameField (o.get? "name") "" := by
  rw [get?_longPortEntry, compose.nameField_orText h]
  cases h_truthy : (longPort o).name.truthy with
  | true => rfl
  | false =>
    have h_name : orText (o.get? "name") "" = .text "" := orText_empty h h_truthy
    rw [h_name]
    rfl

end Written

theorem keepsPort_map {o : Table String Value}
    (h_ports : ∀ k ∈ ["published", "target"], ∀ v, o.get? k = some v → v.isPort)
    (h_names : ∀ k ∈ ["protocol", "name"], ∀ v, o.get? k = some v → v.isText) :
    compose.KeepsPort (.map o) := by
  cases h_fields : o.keys.any fun k => !portFields.contains k with
  | true =>
    have h_raw : parsePortEntry (.map o) = .raw (.map o) := if_pos h_fields
    refine ⟨by rw [h_raw, serializePortRow], fun row h_row => ?_⟩
    rw [h_raw] at h_row
    cases h_row
  | false =>
    have h_row : parsePortEntry (.map o) = .row (longPort o) := by
      rw [parsePortEntry, h_fields]
      rfl
    have h_written : serializePortRow (.row (longPort o)) = .map (longPortEntry (longPort o)) := by
      rw [serializePortRow, if_pos (.inl rfl)]
    have h_protocol := h_names "protocol" (by simp)
    have h_name := h_names "name" (by simp)
    refine ⟨?_, fun row h_eq => ⟨.long, ?_⟩⟩
    · rw [h_row, h_written, mapping, mapping, compose.published_written (h_ports _ (by simp)),
        compose.target_written (h_ports _ (by simp)), compose.protocol_written h_protocol,
        compose.name_written h_name]
      have h_others : (fun k => if portFields.contains k then none
          else (longPortEntry (longPort o)).get? k)
          = fun k => if portFields.contains k then none else o.get? k := by
        funext k
        by_cases h_k : portFields.contains k
        · rw [if_pos h_k, if_pos h_k]
        · rw [if_neg h_k, if_neg h_k, (shown_iff).mp h_fields k h_k,
            (shown_iff).mp keys_longPortEntry k h_k]
      rw [h_others]
    · obtain rfl := Parsed.row.inj (h_row.symm.trans h_eq)
      rw [h_written, parsePortEntry, keys_longPortEntry]
      refine congrArg Parsed.row ?_
      exact longPort_longPortEntry rfl (orText_isNull h_protocol) (orText_isNull h_name)
        (orText_empty h_name)

/-- **Entries of the right types** outlast being written back. -/
theorem keepsPort {e : Entry} (h : PortTyped e) : compose.KeepsPort e := by
  cases e with
  | integer n => exact compose.keepsPort_integer h
  | text entry => exact compose.keepsPort_text entry
  | map o => exact compose.keepsPort_map h.1 h.2
  | list items =>
    cases items with
    | nil => exact absurd rfl h
    | cons item items => exact ⟨rfl, by rintro row ⟨⟩⟩
  | null => exact ⟨rfl, by rintro row ⟨⟩⟩
  | bool b => exact ⟨rfl, by rintro row ⟨⟩⟩

end PortReader

end ServerCentral.Compose
