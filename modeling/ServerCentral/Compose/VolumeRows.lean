import ServerCentral.Compose.Values
import ServerCentral.Framework.Splitting

/-!
# The rows of volumes

The visual editor takes an entry of `volumes` apart into a row and writes the row back when it
is edited. Compose knows two syntaxes: a text `SOURCE:TARGET[:FLAGS]` and a map. What an entry
means to it is the `Mount` that `ComposeReader.mount` finds, none where the entry is refused.

A row of the short syntax keeps the flags but not their order, and one of the long syntax keeps
no more than the fields the editor shows. `volume_kept_iff` says for which entries nothing is
lost by that.
-/

open Framework

namespace ServerCentral.Compose

/-! ### The source -/

inductive VolumeRow where
  | short (source target : List Char) (readOnly : Bool) (extraFlags : Option (List Char))
  /-- Whatever stands in the fields is taken for a text. -/
  | long (source target : Value) (readOnly : Bool)
  | raw (entry : Entry)

def looksLikeHostPath (source : String) : Bool :=
  "/".toList.isPrefixOf source.toList || "./".toList.isPrefixOf source.toList ||
    "../".toList.isPrefixOf source.toList || "~".toList.isPrefixOf source.toList

/-- `mode.split(",").filter(Boolean)` -/
def flagsOf (mode : List Char) : List (List Char) := (mode.splitOn ',').filter (· ≠ [])

def isAccess (flag : List Char) : Bool := flag = ['r', 'o'] ∨ flag = ['r', 'w']

/-- `flags.join(",") || undefined` -/
def joinFlags (flags : List (List Char)) : Option (List Char) :=
  if join ',' flags = [] then none else some (join ',' flags)

def shortRow (source target mode : List Char) : VolumeRow :=
  .short source target ((flagsOf mode).contains ['r', 'o'])
    (joinFlags ((flagsOf mode).filter fun flag => !isAccess flag))

/-- `o.field ?? ""` -/
def orEmpty : Option Value → Value
  | none => .text ""
  | some .null => .text ""
  | some v => v

/-- `o.type === "bind" || o.type === "volume"` -/
def isVolumeType : Value → Bool
  | .text t => t == "bind" || t == "volume"
  | _ => false

/-- `o.read_only === true || o.read_only === "true"` -/
def isTrue : Option Value → Bool
  | some (.bool b) => b
  | some (.text t) => t == "true"
  | _ => false

def parseVolumeEntry : Entry → VolumeRow
  | .text entry =>
    match entry.toList.splitOn ':' with
    | [source, target] => shortRow source target []
    | [source, target, mode] => shortRow source target mode
    | _ => .raw (.text entry)
  | .map o =>
    if (o.get? "type").all isVolumeType then
      .long (orEmpty (o.get? "source")) (orEmpty (o.get? "target")) (isTrue (o.get? "read_only"))
    else .raw (.map o)
  -- a list has none of the fields
  | .list _ => .long (.text "") (.text "") false
  | entry => .raw entry

def longEntry (source : String) (target : Value) (readOnly : Bool) : Table String Value :=
  let o := Table.empty.set "type" (.text (if looksLikeHostPath source then "bind" else "volume"))
  let o := (o.set "source" (.text source)).set "target" target
  if readOnly then o.set "read_only" (.bool true) else o

def shortEntry (source target : List Char) (readOnly : Bool) (extraFlags : Option (List Char)) :
    List Char :=
  let flags := join ',' ([if readOnly then ['r', 'o'] else [], extraFlags.getD []].filter (· ≠ []))
  if flags = [] then source ++ ':' :: target else source ++ ':' :: target ++ ':' :: flags

def serializeVolumeRow : VolumeRow → Except String Entry
  | .raw entry => .ok entry
  | .long (.text source) target readOnly => .ok (.map (longEntry source target readOnly))
  | .long _ _ _ => .error "source.startsWith is not a function"
  | .short source target readOnly extraFlags =>
    .ok (.text (String.ofList (shortEntry source target readOnly extraFlags)))

/-! ### What an entry means -/

/-- A mount. It is anonymous where a `volume` has no source. -/
structure Mount where
  type : String
  source : String
  target : String
  readOnly : Bool
  /-- The flags of the short syntax beside `ro` and `rw`. -/
  flags : List (List Char)
  /-- The fields of the long syntax beside those above. -/
  others : String → Option Value

/-- **How compose reads entries**, where the syntax does not settle it: which sources of the
short syntax are paths, and which values beside texts stand for a text and beside `true` and
`false` for a truth value. -/
structure ComposeReader where
  isPath : List Char → Bool
  text : Value → Option String
  truth : Value → Option Bool
  text_text : ∀ s, text (.text s) = some s
  truth_bool : ∀ b, truth (.bool b) = some b

def volumeFields : List String := ["type", "source", "target", "read_only"]

namespace ComposeReader

variable (compose : ComposeReader)

/-- A field that is empty where it is missing. -/
def textField (field : Option Value) : Option String := compose.text (field.getD (.text ""))

def truthField (field : Option Value) : Option Bool := compose.truth (field.getD (.bool false))

/-- The mount of `SOURCE:TARGET[:FLAGS]`, whose sections may not be empty. The last of `ro` and
`rw` counts, and an empty flag is passed over. -/
def shortMount (source target mode : List Char) : Option Mount :=
  if source = [] ∨ target = [] then none
  else some {
    type := if compose.isPath source then "bind" else "volume"
    source := String.ofList source
    target := String.ofList target
    readOnly := ((flagsOf mode).filter isAccess).getLast? = some ['r', 'o']
    flags := (flagsOf mode).filter fun flag => !isAccess flag
    others := fun _ => none }

def mount : Entry → Option Mount
  | .text entry =>
    match entry.toList.splitOn ':' with
    | [target] => if target = [] then none
      else some ⟨"volume", "", String.ofList target, false, [], fun _ => none⟩
    | [source, target] => compose.shortMount source target []
    | [source, target, mode] => if mode = [] then none else compose.shortMount source target mode
    | _ => none
  | .map o =>
    (o.get? "type").bind compose.text |>.bind fun type =>
    (compose.textField (o.get? "source")).bind fun source =>
    (compose.textField (o.get? "target")).bind fun target =>
    (compose.truthField (o.get? "read_only")).map fun readOnly =>
      ⟨type, source, target, readOnly, [], fun name => if volumeFields.contains name then none
        else o.get? name⟩
  | _ => none

/-- **What writing a row back is to keep.** -/
def KeepsVolume (e : Entry) : Prop :=
  ∃ e', serializeVolumeRow (parseVolumeEntry e) = .ok e' ∧
    compose.mount e' = compose.mount e ∧ parseVolumeEntry e' = parseVolumeEntry e

/-- The fields of a map say what the row says. -/
structure Shown (o : Table String Value) (source : String) : Prop where
  type : o.get? "type" = some (.text (if looksLikeHostPath source then "bind" else "volume"))
  source : compose.textField (o.get? "source") = some source
  target : compose.textField (o.get? "target")
    = compose.textField (some (orEmpty (o.get? "target")))
  readOnly : compose.truthField (o.get? "read_only") = some (isTrue (o.get? "read_only"))
  others : ∀ name ∉ volumeFields, o.get? name = none

/-- The entries of which nothing is lost. Flags have to be there behind a second colon, and
`ro` has to be the last of `ro` and `rw`. A map has to say what its row says, unless its target
is refused either way. -/
def Lossless : Entry → Prop
  | .text entry => ∀ source target mode, entry.toList.splitOn ':' = [source, target, mode] →
    source = [] ∨ target = [] ∨ mode ≠ [] ∧ (['r', 'o'] ∈ flagsOf mode →
      ((flagsOf mode).filter isAccess).getLast? = some ['r', 'o'])
  | .map o => (o.get? "type").all isVolumeType = true →
    ∃ source, orEmpty (o.get? "source") = .text source ∧
      (compose.textField (some (orEmpty (o.get? "target"))) = none ∨ compose.Shown o source)
  | .list _ => False
  | _ => True

end ComposeReader

/-! ### Flags -/

theorem ne_nil_of_mem_flagsOf {mode flag : List Char} (h : flag ∈ flagsOf mode) : flag ≠ [] :=
  of_decide_eq_true (List.mem_filter.mp h).2

/-- A flag has no comma and no other character that the mode has not. -/
theorem notMem_of_mem_flagsOf {mode flag : List Char} (h : flag ∈ flagsOf mode) : ',' ∉ flag :=
  notMem_of_mem_splitOn (List.mem_filter.mp h).1

theorem mem_of_mem_flagsOf {mode flag : List Char} (h : flag ∈ flagsOf mode) {c : Char}
    (h_c : c ∈ flag) : c ∈ mode := by
  rw [← (join_splitOn mode : join ',' (mode.splitOn ',') = mode)]
  obtain ⟨pre, post, h_parts⟩ := List.append_of_mem (List.mem_filter.mp h).1
  rw [h_parts]
  exact part_subset_join pre flag post h_c

/-- Joined flags are found again. -/
theorem flagsOf_join {flags : List (List Char)} (h : ∀ flag ∈ flags, flag ≠ [] ∧ ',' ∉ flag) :
    flagsOf (join ',' flags) = flags := by
  by_cases h_nil : flags = []
  · subst h_nil
    rfl
  · rw [flagsOf, splitOn_join h_nil fun flag h_flag => (h flag h_flag).2]
    exact List.filter_eq_self.mpr fun flag h_flag => decide_eq_true (h flag h_flag).1

theorem joinFlags_getD (flags : List (List Char)) : (joinFlags flags).getD [] = join ',' flags := by
  rw [joinFlags]
  split
  case isTrue h => exact h.symm
  case isFalse => rfl

/-- The flags that are written back: `ro` first, and `rw` not at all. -/
def writtenFlags (mode : List Char) : List (List Char) :=
  (if (flagsOf mode).contains ['r', 'o'] then [['r', 'o']] else []) ++
    (flagsOf mode).filter fun flag => !isAccess flag

variable {mode : List Char}

theorem mem_writtenFlags {flag : List Char} (h : flag ∈ writtenFlags mode) : flag ∈ flagsOf mode := by
  obtain h | h := List.mem_append.mp h
  · split at h
    case isTrue h_ro =>
      rw [List.mem_singleton.mp h]
      exact List.contains_iff_mem.mp h_ro
    case isFalse => cases h
  · exact (List.mem_filter.mp h).1

theorem flagsOf_written : flagsOf (join ',' (writtenFlags mode)) = writtenFlags mode :=
  flagsOf_join fun _ h =>
    ⟨ne_nil_of_mem_flagsOf (mem_writtenFlags h), notMem_of_mem_flagsOf (mem_writtenFlags h)⟩

theorem readOnly_written :
    (writtenFlags mode).contains ['r', 'o'] = (flagsOf mode).contains ['r', 'o'] := by
  rw [writtenFlags, List.contains_append]
  cases (flagsOf mode).contains ['r', 'o'] <;> simp [isAccess]

theorem others_written : (writtenFlags mode).filter (fun flag => !isAccess flag)
    = (flagsOf mode).filter fun flag => !isAccess flag := by
  rw [writtenFlags, List.filter_append, List.filter_filter]
  split <;> simp [isAccess]

/-- Compose reads `ro` where it is written. -/
theorem access_written : ((writtenFlags mode).filter isAccess).getLast? = some ['r', 'o'] ↔
    ['r', 'o'] ∈ flagsOf mode := by
  have h_none : ((flagsOf mode).filter fun flag => !isAccess flag).filter isAccess = [] := by
    rw [List.filter_filter]
    simp
  rw [writtenFlags, List.filter_append, h_none, List.append_nil, ← List.contains_iff_mem]
  cases (flagsOf mode).contains ['r', 'o'] <;> simp [isAccess]

/-! ### The short syntax -/

variable {source target : List Char}

/-- What is written has two sections, and a third one where there are flags. -/
theorem shortEntry_written : shortEntry source target ((flagsOf mode).contains ['r', 'o'])
      (joinFlags ((flagsOf mode).filter fun flag => !isAccess flag))
    = join ':' (source :: target :: [join ',' (writtenFlags mode)].filter (· ≠ [])) := by
  have h_flags : join ',' ([if (flagsOf mode).contains ['r', 'o'] then ['r', 'o'] else [],
      join ',' ((flagsOf mode).filter fun flag => !isAccess flag)].filter (· ≠ []))
        = join ',' (writtenFlags mode) := by
    have h_some : ∀ flag ∈ (flagsOf mode).filter fun flag => !isAccess flag, flag ≠ [] :=
      fun flag h => ne_nil_of_mem_flagsOf (List.mem_filter.mp h).1
    rw [writtenFlags]
    cases h_others : (flagsOf mode).filter fun flag => !isAccess flag with
    | nil => cases (flagsOf mode).contains ['r', 'o'] <;> simp
    | cons flag rest =>
      have h_join : join ',' (flag :: rest) ≠ [] := by
        rw [Ne, join_eq_nil (h_others ▸ h_some)]
        exact List.cons_ne_nil flag rest
      cases (flagsOf mode).contains ['r', 'o'] <;> simp [h_join]
  rw [shortEntry, joinFlags_getD, h_flags]
  by_cases h_nil : join ',' (writtenFlags mode) = []
  · simp [h_nil]
  · simp [h_nil]

/-- The sections of what is written. -/
theorem splitOn_sections (h_source : ':' ∉ source) (h_target : ':' ∉ target) (h_mode : ':' ∉ mode) :
    (join ':' (source :: target :: [mode].filter (· ≠ []))).splitOn ':'
      = source :: target :: [mode].filter (· ≠ []) := by
  refine splitOn_join (List.cons_ne_nil _ _) fun part h => ?_
  obtain rfl | h := List.mem_cons.mp h
  · exact h_source
  obtain rfl | h := List.mem_cons.mp h
  · exact h_target
  · rw [List.mem_singleton.mp (List.mem_filter.mp h).1]
    exact h_mode

theorem colon_notMem_written (h : ':' ∉ mode) : ':' ∉ join ',' (writtenFlags mode) := by
  intro h_mem
  obtain h_comma | ⟨flag, h_flag, h_colon⟩ := mem_join h_mem
  · exact absurd h_comma (by decide)
  · exact h (mem_of_mem_flagsOf (mem_writtenFlags h_flag) h_colon)

/-- A row whose flags were written back is the row before. -/
theorem shortRow_written :
    shortRow source target (join ',' (writtenFlags mode)) = shortRow source target mode := by
  rw [shortRow, flagsOf_written, readOnly_written, others_written, shortRow]

/-- An entry with these sections, where an empty mode is left out. -/
theorem parse_sections {entry : String}
    (h : entry.toList.splitOn ':' = source :: target :: [mode].filter (· ≠ [])) :
    parseVolumeEntry (.text entry) = shortRow source target mode := by
  by_cases h_mode : mode = []
  · subst h_mode
    rw [parseVolumeEntry, h]
    rfl
  · rw [List.filter_singleton, decide_eq_true h_mode] at h
    rw [parseVolumeEntry, h]
    rfl

namespace ComposeReader

variable (compose : ComposeReader)

theorem mount_sections {entry : String}
    (h : entry.toList.splitOn ':' = source :: target :: [mode].filter (· ≠ [])) :
    compose.mount (.text entry) = compose.shortMount source target mode := by
  by_cases h_mode : mode = []
  · subst h_mode
    rw [mount, h]
    rfl
  · rw [List.filter_singleton, decide_eq_true h_mode] at h
    rw [mount, h]
    exact if_neg h_mode

/-- Flags that were written back mean what they meant before unless `rw` follows `ro`. -/
theorem shortMount_written_iff :
    compose.shortMount source target (join ',' (writtenFlags mode))
      = compose.shortMount source target mode ↔
    source = [] ∨ target = [] ∨ (['r', 'o'] ∈ flagsOf mode →
      ((flagsOf mode).filter isAccess).getLast? = some ['r', 'o']) := by
  rw [shortMount, shortMount, ← or_assoc]
  by_cases h : source = [] ∨ target = []
  · rw [if_pos h, if_pos h]
    exact iff_of_true rfl (.inl h)
  · rw [if_neg h, if_neg h, flagsOf_written, others_written, or_iff_right h, Option.some.injEq,
      Mount.mk.injEq]
    simp only [access_written, true_and, and_true, decide_eq_decide]
    refine ⟨Iff.mp, fun h_last => ⟨h_last, fun h_ro => ?_⟩⟩
    exact (List.mem_filter.mp (List.mem_of_getLast? h_ro)).1

/-- A text with two or three sections. -/
theorem keepsVolume_text_iff {entry : String} (h_source : ':' ∉ source) (h_target : ':' ∉ target)
    (h_mode : ':' ∉ mode) (h_row : parseVolumeEntry (.text entry) = shortRow source target mode) :
    compose.KeepsVolume (.text entry) ↔
      compose.shortMount source target (join ',' (writtenFlags mode))
        = compose.mount (.text entry) := by
  have h_split : (String.ofList (join ':' (source :: target ::
      [join ',' (writtenFlags mode)].filter (· ≠ [])))).toList.splitOn ':'
        = source :: target :: [join ',' (writtenFlags mode)].filter (· ≠ []) := by
    rw [String.toList_ofList]
    exact splitOn_sections h_source h_target (colon_notMem_written h_mode)
  have h_written : serializeVolumeRow (parseVolumeEntry (.text entry)) = .ok (.text (String.ofList
      (join ':' (source :: target :: [join ',' (writtenFlags mode)].filter (· ≠ []))))) := by
    rw [h_row, shortRow, serializeVolumeRow, shortEntry_written]
  constructor
  · rintro ⟨e', h_ok, h_mount, -⟩
    obtain rfl := Except.ok.inj (h_written.symm.trans h_ok)
    exact (compose.mount_sections h_split).symm.trans h_mount
  · intro h_mount
    refine ⟨_, h_written, (compose.mount_sections h_split).trans h_mount, ?_⟩
    rw [parse_sections h_split, shortRow_written, h_row]

end ComposeReader

/-! ### The long syntax -/

section Long

variable {text : String} {value : Value} {readOnly : Bool}

theorem get?_longEntry (name : String) : (longEntry text value readOnly).get? name =
    if name = "read_only" ∧ readOnly = true then some (.bool true)
    else if name = "target" then some value
    else if name = "source" then some (.text text)
    else if name = "type" then
      some (.text (if looksLikeHostPath text then "bind" else "volume"))
    else none := by
  cases readOnly with
  | true => simp [longEntry, Table.get?_set]
  | false => simp [longEntry, Table.get?_set]

theorem orEmpty_orEmpty (field : Option Value) : orEmpty (some (orEmpty field)) = orEmpty field := by
  cases field with
  | none => rfl
  | some v => cases v <;> rfl

theorem isTrue_longEntry : isTrue ((longEntry text value readOnly).get? "read_only") = readOnly := by
  rw [get?_longEntry]
  cases readOnly <;> rfl

/-- A row of a map is found again. -/
theorem parse_longEntry (field : Option Value) :
    parseVolumeEntry (.map (longEntry text (orEmpty field) readOnly))
      = .long (.text text) (orEmpty field) readOnly := by
  have h_type : ((longEntry text (orEmpty field) readOnly).get? "type").all isVolumeType = true := by
    rw [get?_longEntry]
    by_cases h : looksLikeHostPath text <;> simp [h, isVolumeType]
  have h_source : (longEntry text (orEmpty field) readOnly).get? "source" = some (.text text) := by
    simp [get?_longEntry]
  have h_target : (longEntry text (orEmpty field) readOnly).get? "target"
      = some (orEmpty field) := by
    simp [get?_longEntry]
  rw [parseVolumeEntry, if_pos h_type, isTrue_longEntry, h_source, h_target, orEmpty_orEmpty]
  rfl

end Long

namespace ComposeReader

variable (compose : ComposeReader)

/-- The mount of a map, field by field. -/
theorem mount_map_eq_some {o : Table String Value} {m : Mount} :
    compose.mount (.map o) = some m ↔ (o.get? "type").bind compose.text = some m.type ∧
      compose.textField (o.get? "source") = some m.source ∧
      compose.textField (o.get? "target") = some m.target ∧
      compose.truthField (o.get? "read_only") = some m.readOnly ∧ m.flags = [] ∧
      m.others = fun name => if volumeFields.contains name then none else o.get? name := by
  rw [mount]
  simp only [Option.bind_eq_some_iff, Option.map_eq_some_iff]
  constructor
  · rintro ⟨type, h_type, source, h_source, target, h_target, readOnly, h_readOnly, rfl⟩
    exact ⟨h_type, h_source, h_target, h_readOnly, rfl, rfl⟩
  · rintro ⟨h_type, h_source, h_target, h_readOnly, h_flags, h_others⟩
    refine ⟨_, h_type, _, h_source, _, h_target, _, h_readOnly, ?_⟩
    rw [← h_flags, ← h_others]

/-- Nothing stands in a written map beside the fields of the editor. -/
theorem mount_longEntry {text : String} {value : Value} {readOnly : Bool} {m : Mount} :
    compose.mount (.map (longEntry text value readOnly)) = some m ↔
      m.type = (if looksLikeHostPath text then "bind" else "volume") ∧ m.source = text ∧
      compose.textField (some value) = some m.target ∧ m.readOnly = readOnly ∧ m.flags = [] ∧
      m.others = fun _ => none := by
  have h_others : (fun name => if volumeFields.contains name then none
      else (longEntry text value readOnly).get? name) = fun _ => none := by
    funext name
    rw [get?_longEntry]
    by_cases h : volumeFields.contains name
    · rw [if_pos h]
    · have h_name : name ∉ volumeFields := fun h_mem => h (List.contains_iff_mem.mpr h_mem)
      simp only [volumeFields, List.mem_cons, List.not_mem_nil, or_false, not_or] at h_name
      simp [h_name]
  have h_truth : compose.truthField ((longEntry text value readOnly).get? "read_only")
      = some readOnly := by
    rw [get?_longEntry]
    cases readOnly <;> exact compose.truth_bool _
  rw [mount_map_eq_some, h_others, h_truth]
  simp only [get?_longEntry, textField, Option.bind_some, Option.getD_some, reduceIte,
    String.reduceEq, false_and, compose.text_text, Option.some.injEq, eq_comm]

theorem textField_orEmpty {field : Option Value}
    (h : compose.textField (some (orEmpty field)) = none) : compose.textField field = none := by
  have h_empty : compose.textField (some (.text "")) = some "" := compose.text_text ""
  cases field with
  | none => cases h_empty.symm.trans h
  | some v =>
    cases v with
    | null => cases h_empty.symm.trans h
    | _ => exact h

/-- A map that is written means what the map before means. -/
theorem mount_same_iff {o : Table String Value} (source : String)
    (h_type : (o.get? "type").all isVolumeType = true) :
    compose.mount (.map (longEntry source (orEmpty (o.get? "target")) (isTrue (o.get? "read_only"))))
      = compose.mount (.map o) ↔
    compose.textField (some (orEmpty (o.get? "target"))) = none ∨ compose.Shown o source := by
  cases h_target : compose.textField (some (orEmpty (o.get? "target"))) with
  | none =>
    refine iff_of_true ?_ (.inl rfl)
    have h_refused : compose.mount (.map o) = none := by
      rw [Option.eq_none_iff_forall_ne_some]
      intro m h_mount
      have h_some := (compose.mount_map_eq_some.mp h_mount).2.2.1
      cases (compose.textField_orEmpty h_target).symm.trans h_some
    rw [h_refused, Option.eq_none_iff_forall_ne_some]
    intro m h_mount
    cases h_target.symm.trans (compose.mount_longEntry.mp h_mount).2.2.1
  | some target =>
    let m : Mount := ⟨if looksLikeHostPath source then "bind" else "volume", source, target,
      isTrue (o.get? "read_only"), [], fun _ => none⟩
    have h_written := (compose.mount_longEntry (m := m)).mpr ⟨rfl, rfl, h_target, rfl, rfl, rfl⟩
    have h_read : (o.get? "type").bind compose.text = some m.type ↔
        o.get? "type" = some (.text m.type) := by
      cases h_get : o.get? "type" with
      | none => simp
      | some v =>
        rw [h_get, Option.all_some] at h_type
        cases v with
        | text t => simp [compose.text_text]
        | _ => cases h_type
    have h_others : m.others = (fun name => if volumeFields.contains name then none
        else o.get? name) ↔ ∀ name ∉ volumeFields, o.get? name = none := by
      rw [funext_iff]
      refine forall_congr' fun name => ?_
      by_cases h : name ∈ volumeFields
      · simp [m, h]
      · simp [m, h, eq_comm]
    rw [h_written, eq_comm, mount_map_eq_some, h_read, h_others, or_iff_right (Option.some_ne_none _)]
    constructor
    · rintro ⟨h_type, h_source, h_t, h_readOnly, -, h_rest⟩
      exact ⟨h_type, h_source, h_t.trans h_target.symm, h_readOnly, h_rest⟩
    · rintro ⟨h_type, h_source, h_t, h_readOnly, h_rest⟩
      exact ⟨h_type, h_source, h_t.trans h_target, h_readOnly, rfl, h_rest⟩

theorem keepsVolume_map_iff {o : Table String Value}
    (h_type : (o.get? "type").all isVolumeType = true) :
    compose.KeepsVolume (.map o) ↔ ∃ source, orEmpty (o.get? "source") = .text source ∧
      (compose.textField (some (orEmpty (o.get? "target"))) = none ∨ compose.Shown o source) := by
  have h_row : parseVolumeEntry (.map o) = .long (orEmpty (o.get? "source"))
      (orEmpty (o.get? "target")) (isTrue (o.get? "read_only")) := if_pos h_type
  rw [KeepsVolume, h_row]
  cases h_source : orEmpty (o.get? "source") with
  | text source =>
    have h_same := compose.mount_same_iff source h_type
    constructor
    · rintro ⟨e', h_ok, h_mount, -⟩
      obtain rfl := Except.ok.inj h_ok
      exact ⟨source, rfl, h_same.mp h_mount⟩
    · rintro ⟨s, h_s, h⟩
      obtain rfl := Value.text.inj h_s
      exact ⟨_, rfl, h_same.mpr h, parse_longEntry _⟩
  | _ =>
    refine iff_of_false ?_ ?_
    · rintro ⟨e', h_ok, -⟩
      cases h_ok
    · rintro ⟨source, h, -⟩
      cases h

/-- A text with three sections loses its mode unless the mode can be written back. -/
theorem keepsVolume_three_iff {entry : String} {source target mode : List Char}
    (h_split : entry.toList.splitOn ':' = [source, target, mode]) :
    compose.KeepsVolume (.text entry) ↔ source = [] ∨ target = [] ∨ mode ≠ [] ∧
      (['r', 'o'] ∈ flagsOf mode →
        ((flagsOf mode).filter isAccess).getLast? = some ['r', 'o']) := by
  have h_part : ∀ part ∈ entry.toList.splitOn ':', ':' ∉ part := fun _ => notMem_of_mem_splitOn
  rw [h_split] at h_part
  have h_row : parseVolumeEntry (.text entry) = shortRow source target mode := by
    rw [parseVolumeEntry, h_split]
  have h_mount : compose.mount (.text entry)
      = if mode = [] then none else compose.shortMount source target mode := by
    rw [mount, h_split]
  rw [compose.keepsVolume_text_iff (h_part source (by simp)) (h_part target (by simp))
    (h_part mode (by simp)) h_row, h_mount]
  by_cases h_mode : mode = []
  · -- compose refuses an empty mode, which is not written back
    subst h_mode
    rw [if_pos rfl, show join ',' (writtenFlags []) = [] from rfl, shortMount, ← or_assoc]
    by_cases h : source = [] ∨ target = []
    · rw [if_pos h]
      exact iff_of_true rfl (.inl h)
    · rw [if_neg h, or_iff_right h]
      exact iff_of_false (Option.some_ne_none _) fun h_mode => h_mode.1 rfl
  · rw [if_neg h_mode, shortMount_written_iff, and_iff_right h_mode]

/-- The entries of the short syntax. -/
theorem keepsVolume_short_iff (entry : String) :
    compose.KeepsVolume (.text entry) ↔ compose.Lossless (.text entry) := by
  have h_raw (h : parseVolumeEntry (.text entry) = .raw (.text entry))
      (h_long : (entry.toList.splitOn ':').length ≠ 3) :
      compose.KeepsVolume (.text entry) ↔ compose.Lossless (.text entry) := by
    refine iff_of_true ⟨.text entry, ?_, rfl, rfl⟩ fun source target mode h_split => ?_
    · rw [h, serializeVolumeRow]
    · rw [h_split] at h_long
      exact absurd rfl h_long
  rcases h_split : entry.toList.splitOn ':' with _ | ⟨source, rest⟩
  · exact absurd h_split (List.splitOn_ne_nil _ _)
  obtain _ | ⟨target, rest⟩ := rest
  · exact h_raw (by rw [parseVolumeEntry, h_split]) (by rw [h_split]; simp)
  obtain _ | ⟨mode, rest⟩ := rest
  · -- two sections are written as they stand
    have h_part : ∀ part ∈ entry.toList.splitOn ':', ':' ∉ part := fun _ => notMem_of_mem_splitOn
    rw [h_split] at h_part
    have h_sections : entry.toList.splitOn ':' = source :: target :: [[]].filter (· ≠ []) := h_split
    refine iff_of_true ?_ fun source target mode h_three => ?_
    · rw [compose.keepsVolume_text_iff (h_part source (by simp)) (h_part target (by simp))
        List.not_mem_nil (parse_sections h_sections), compose.mount_sections h_sections]
      rfl
    · cases h_split.symm.trans h_three
  obtain _ | ⟨other, rest⟩ := rest
  · rw [compose.keepsVolume_three_iff h_split]
    constructor
    · intro h s t m h_three
      cases h_split.symm.trans h_three
      exact h
    · intro h
      exact h source target mode h_split
  · exact h_raw (by rw [parseVolumeEntry, h_split]) (by rw [h_split]; simp)

/-- **Main result.** Writing an entry back loses nothing exactly if the entry is lossless. -/
theorem volume_kept_iff (e : Entry) : compose.KeepsVolume e ↔ compose.Lossless e := by
  cases e with
  | text entry => exact compose.keepsVolume_short_iff entry
  | map o =>
    by_cases h_type : (o.get? "type").all isVolumeType = true
    · rw [compose.keepsVolume_map_iff h_type]
      exact ⟨fun h _ => h, fun h => h h_type⟩
    · have h_raw : parseVolumeEntry (.map o) = .raw (.map o) := if_neg h_type
      refine iff_of_true ⟨.map o, ?_, rfl, rfl⟩ fun h => absurd h h_type
      rw [h_raw, serializeVolumeRow]
  | list items =>
    refine iff_of_false ?_ (fun h => h)
    rintro ⟨e', h_ok, h_mount, -⟩
    obtain rfl := Except.ok.inj h_ok
    have h_written : compose.mount (.map (longEntry "" (.text "") false))
        = some ⟨"volume", "", "", false, [], fun _ => none⟩ :=
      compose.mount_longEntry.mpr ⟨rfl, rfl, compose.text_text "", rfl, rfl, rfl⟩
    cases h_written.symm.trans h_mount
  | null => exact iff_of_true ⟨_, rfl, rfl, rfl⟩ trivial
  | bool b => exact iff_of_true ⟨_, rfl, rfl, rfl⟩ trivial
  | integer n => exact iff_of_true ⟨_, rfl, rfl, rfl⟩ trivial

end ComposeReader

/-- Compose, where it takes no other values for texts and truth values. -/
def strictReader : ComposeReader where
  isPath source := source.head?.any fun c => c == '/' || c == '.' || c == '~'
  text
    | .text s => some s
    | _ => none
  truth
    | .bool b => some b
    | _ => none
  text_text _ := rfl
  truth_bool _ := rfl

/-- **What is lost**: the last word of `ro,rw`, the options of a bind mount, and the type of a
source `.`. -/
theorem volume_entries_change :
    ¬ strictReader.KeepsVolume (.text "/a:/b:ro,rw") ∧
    ¬ strictReader.KeepsVolume (.map ((((Table.empty.set "type" (.text "bind")).set "source"
      (.text "/a")).set "target" (.text "/b")).set "bind" (.map [("propagation", .text "shared")]))) ∧
    ¬ strictReader.KeepsVolume (.map (((Table.empty.set "type" (.text "bind")).set "source"
      (.text ".")).set "target" (.text "/b"))) := by
  refine ⟨?_, ?_, ?_⟩
  · have h_split : "/a:/b:ro,rw".toList.splitOn ':'
        = ["/a".toList, "/b".toList, "ro,rw".toList] := by decide
    rw [strictReader.keepsVolume_three_iff h_split]
    decide
  · rw [strictReader.keepsVolume_map_iff rfl]
    rintro ⟨source, -, h | h⟩
    · cases h
    · cases h.others "bind" (by decide)
  · rw [strictReader.keepsVolume_map_iff rfl]
    rintro ⟨source, h_source, h | h⟩
    · cases h
    · obtain rfl := Value.text.inj h_source
      exact absurd h.type (by simp [Table.get?_set, looksLikeHostPath])

end ServerCentral.Compose
