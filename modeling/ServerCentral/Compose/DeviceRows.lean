import ServerCentral.Compose.PortRows

/-!
# The rows of devices

An entry of `devices` is a text `SOURCE[:TARGET[:PERMISSIONS]]` or a map. Compose takes the source
for a missing target and `rwm` for missing permissions.

Permissions have no place in a text without a target, so a row of that kind is written with its
source as the target, and is parsed with that target again (`repeated`). All else is found again
as it was (`keepsDevice`).
-/

open Framework

namespace ServerCentral.Compose

/-! ### The source -/

/-- Whatever stands in `target` and `permissions` is taken for a text. -/
structure DeviceRow where
  kind : RowKind
  source : String
  target : Value
  permissions : Value

def deviceFields : List String := ["source", "target", "permissions"]

/-- A row of texts. -/
def shortDevice (entry : String) (source target permissions : List Char) : Parsed DeviceRow :=
  if source = [] then .raw (.text entry)
  else .row ⟨.short, String.ofList source, .text (String.ofList target),
    .text (String.ofList permissions)⟩

def parseDeviceEntry : Entry → Parsed DeviceRow
  | .text entry =>
    match entry.toList.splitOn ':' with
    | [source] => shortDevice entry source [] []
    | [source, target] => shortDevice entry source target []
    | [source, target, permissions] => shortDevice entry source target permissions
    | _ => .raw (.text entry)
  | .map o =>
    if o.keys.any fun k => !deviceFields.contains k then .raw (.map o)
    else match o.get? "source" with
      | some (.text source) =>
        .row ⟨.long, source, orText (o.get? "target") "", orText (o.get? "permissions") ""⟩
      | _ => .raw (.map o)
  | entry => .raw entry

def longDeviceEntry (row : DeviceRow) : Table String Value :=
  let o := Table.empty.set "source" (.text row.source)
  let o := if row.target.truthy then o.set "target" row.target else o
  if row.permissions.truthy then o.set "permissions" row.permissions else o

def serializeDeviceRow : Parsed DeviceRow → Entry
  | .raw entry => entry
  | .row row =>
    if row.kind = .long then .map (longDeviceEntry row)
    else if row.permissions.truthy then
      .text (row.source ++ ":" ++ (if row.target.truthy then row.target.string else row.source) ++
        ":" ++ row.permissions.string)
    else if row.target.truthy then .text (row.source ++ ":" ++ row.target.string)
    else .text row.source

/-! ### What an entry means -/

structure DeviceMapping where
  source : String
  target : String
  permissions : String
  others : String → Option Value

/-- A missing target is the source, and missing permissions are all of them. -/
def deviceMapping (source target permissions : String) (others : String → Option Value) :
    DeviceMapping :=
  ⟨source, if target = "" then source else target,
    if permissions = "" then "rwm" else permissions, others⟩

namespace PortReader

variable (compose : PortReader)

def device : Entry → Option DeviceMapping
  | .text entry =>
    match entry.toList.splitOn ':' with
    | [source] => some (deviceMapping (String.ofList source) "" "" fun _ => none)
    | [source, target] =>
      some (deviceMapping (String.ofList source) (String.ofList target) "" fun _ => none)
    | [source, target, permissions] => some (deviceMapping (String.ofList source)
        (String.ofList target) (String.ofList permissions) fun _ => none)
    | _ => none
  | .map o =>
    ((o.get? "source").bind compose.text).bind fun source =>
    (compose.nameField (o.get? "target") "").bind fun target =>
    (compose.nameField (o.get? "permissions") "").map fun permissions =>
      deviceMapping source target permissions fun k =>
        if deviceFields.contains k then none else o.get? k
  | _ => none

end PortReader

/-- **The row that is found again**: a target is written where a text has permissions. -/
def DeviceRow.repeated (row : DeviceRow) : DeviceRow :=
  if row.kind = .short ∧ row.permissions.truthy = true ∧ row.target.truthy = false then
    { row with target := .text row.source }
  else row

/-- **What writing a row back is to keep.** -/
structure PortReader.KeepsDevice (compose : PortReader) (e : Entry) : Prop where
  meaning : compose.device (serializeDeviceRow (parseDeviceEntry e)) = compose.device e
  row : ∀ row, parseDeviceEntry e = .row row →
    parseDeviceEntry (serializeDeviceRow (.row row)) = .row row.repeated

/-- The entries whose target and permissions are texts. -/
def DeviceTyped : Entry → Prop
  | .map o => ∀ k ∈ ["target", "permissions"], ∀ v, o.get? k = some v → v.isText
  | _ => True

/-! ### The short syntax -/

/-- What is written for a short row. -/
def deviceText (source target permissions : List Char) : List Char :=
  if permissions ≠ [] then
    join ':' [source, if target = [] then source else target, permissions]
  else if target ≠ [] then join ':' [source, target]
  else source

/-- The sections of a text, where one that is missing is empty. -/
inductive Sections (text : List Char) : List Char → List Char → List Char → Prop
  | one {source : List Char} (h : text.splitOn ':' = [source]) : Sections text source [] []
  | two {source target : List Char} (h : text.splitOn ':' = [source, target]) : Sections text source target []
  | three {source target permissions : List Char}
    (h : text.splitOn ':' = [source, target, permissions]) :
    Sections text source target permissions

section Short

variable {source target permissions : List Char}

theorem truthy_ofList {text : List Char} :
    (Value.text (String.ofList text)).truthy = decide (text ≠ []) := by
  simp [Value.truthy]

theorem string_ofList {text : List Char} : (Value.text (String.ofList text)).string = String.ofList text :=
  rfl

theorem serialize_shortDevice :
    serializeDeviceRow (.row ⟨.short, String.ofList source, .text (String.ofList target),
      .text (String.ofList permissions)⟩) =
    .text (String.ofList (deviceText source target permissions)) := by
  have h_short : ¬ RowKind.short = RowKind.long := by decide
  simp only [serializeDeviceRow, if_neg h_short, truthy_ofList, string_ofList, deviceText,
    decide_eq_true_eq]
  by_cases h_p : permissions = []
  · by_cases h_t : target = []
    · simp [h_p, h_t]
    · simp only [h_p, h_t, ne_eq, not_true_eq_false, not_false_eq_true, if_false, if_true,
        Entry.text.injEq]
      apply String.toList_inj.mp
      simp
  · by_cases h_t : target = []
    · simp only [h_p, h_t, ne_eq, not_true_eq_false, not_false_eq_true, if_false, if_true,
        Entry.text.injEq]
      apply String.toList_inj.mp
      simp
    · simp only [h_p, h_t, ne_eq, not_false_eq_true, if_false, if_true, Entry.text.injEq]
      apply String.toList_inj.mp
      simp

theorem parse_of_sections {entry : String} (h : Sections entry.toList source target permissions) :
    parseDeviceEntry (.text entry) = shortDevice entry source target permissions := by
  cases h with
  | one h => rw [parseDeviceEntry, h]
  | two h => rw [parseDeviceEntry, h]
  | three h => rw [parseDeviceEntry, h]

theorem device_of_sections (compose : PortReader) {entry : String}
    (h : Sections entry.toList source target permissions) :
    compose.device (.text entry) = some (deviceMapping (String.ofList source)
      (String.ofList target) (String.ofList permissions) fun _ => none) := by
  cases h with
  | one h => rw [PortReader.device, h, String.ofList_nil]
  | two h => rw [PortReader.device, h, String.ofList_nil]
  | three h => rw [PortReader.device, h]

theorem Sections.notMem {text : List Char} (h : Sections text source target permissions) :
    ':' ∉ source ∧ ':' ∉ target ∧ ':' ∉ permissions := by
  have h_part : ∀ part ∈ text.splitOn ':', ':' ∉ part := fun _ => notMem_of_mem_splitOn
  cases h with
  | one h => rw [h] at h_part; simpa using h_part
  | two h => rw [h] at h_part; simpa using h_part
  | three h => rw [h] at h_part; simpa using h_part

/-- **The sections of what is written.** -/
theorem sections_written (h_source : ':' ∉ source) (h_target : ':' ∉ target)
    (h_permissions : ':' ∉ permissions) :
    Sections (deviceText source target permissions) source
      (if permissions ≠ [] ∧ target = [] then source else target) permissions := by
  rw [deviceText]
  by_cases h_p : permissions = []
  · subst h_p
    by_cases h_t : target = []
    · subst h_t
      have h_one : (join ':' [source]).splitOn ':' = [source] :=
        splitOn_join (List.cons_ne_nil _ _) (by simpa using h_source)
      rw [join_singleton] at h_one
      simpa using Sections.one h_one
    · have h_two : (join ':' [source, target]).splitOn ':' = [source, target] :=
        splitOn_join (List.cons_ne_nil _ _) (by simpa using ⟨h_source, h_target⟩)
      simpa [h_t] using Sections.two h_two
  · by_cases h_t : target = []
    · have h_three : (join ':' [source, source, permissions]).splitOn ':'
          = [source, source, permissions] :=
        splitOn_join (List.cons_ne_nil _ _) (by simpa using ⟨h_source, h_permissions⟩)
      simpa [h_p, h_t] using Sections.three h_three
    · have h_three : (join ':' [source, target, permissions]).splitOn ':'
          = [source, target, permissions] :=
        splitOn_join (List.cons_ne_nil _ _) (by simpa using ⟨h_source, h_target, h_permissions⟩)
      simpa [h_p, h_t] using Sections.three h_three

/-- A target that is repeated means the source. -/
theorem deviceMapping_written {others : String → Option Value} :
    deviceMapping (String.ofList source)
      (String.ofList (if permissions ≠ [] ∧ target = [] then source else target))
      (String.ofList permissions) others
    = deviceMapping (String.ofList source) (String.ofList target) (String.ofList permissions)
      others := by
  by_cases h : permissions ≠ [] ∧ target = []
  · rw [if_pos h, h.2, deviceMapping, deviceMapping, if_pos String.ofList_nil, ite_self]
  · rw [if_neg h]

theorem repeated_written :
    DeviceRow.repeated ⟨.short, String.ofList source, .text (String.ofList target),
      .text (String.ofList permissions)⟩
    = ⟨.short, String.ofList source,
      .text (String.ofList (if permissions ≠ [] ∧ target = [] then source else target)),
      .text (String.ofList permissions)⟩ := by
  rw [DeviceRow.repeated]
  by_cases h_p : permissions = []
  · simp [h_p, Value.truthy]
  · by_cases h_t : target = [] <;> simp [h_p, h_t, Value.truthy]

/-- A text has sections, or is left as it is. -/
theorem sections_or_raw (entry : String) :
    (∃ source target permissions, source ≠ [] ∧ Sections entry.toList source target permissions) ∨
      parseDeviceEntry (.text entry) = .raw (.text entry) := by
  have h_or : (∃ source target permissions, Sections entry.toList source target permissions) ∨
      parseDeviceEntry (.text entry) = .raw (.text entry) := by
    rcases h_split : entry.toList.splitOn ':' with _ | ⟨source, _ | ⟨target, _ | ⟨permissions,
      _ | ⟨other, rest⟩⟩⟩⟩
    · exact absurd h_split (List.splitOn_ne_nil _ _)
    · exact .inl ⟨_, _, _, .one h_split⟩
    · exact .inl ⟨_, _, _, .two h_split⟩
    · exact .inl ⟨_, _, _, .three h_split⟩
    · exact .inr (by rw [parseDeviceEntry, h_split])
  obtain ⟨source, target, permissions, h⟩ | h_raw := h_or
  · by_cases h_some : source = []
    · right
      rw [parse_of_sections h, shortDevice, if_pos h_some]
    · exact .inl ⟨source, target, permissions, h_some, h⟩
  · exact .inr h_raw

end Short

namespace PortReader

variable (compose : PortReader)

theorem keepsDevice_text (entry : String) : compose.KeepsDevice (.text entry) := by
  obtain ⟨source, target, permissions, h_some, h⟩ | h_raw := sections_or_raw entry
  · obtain ⟨h_source, h_target, h_permissions⟩ := h.notMem
    have h_row : parseDeviceEntry (.text entry) = .row ⟨.short, String.ofList source,
        .text (String.ofList target), .text (String.ofList permissions)⟩ := by
      rw [parse_of_sections h, shortDevice, if_neg h_some]
    have h_again := sections_written h_source h_target h_permissions
    rw [← String.toList_ofList (l := deviceText source target permissions)] at h_again
    refine ⟨?_, fun row h_eq => ?_⟩
    · rw [h_row, serialize_shortDevice, device_of_sections compose h_again,
        device_of_sections compose h, deviceMapping_written]
    · obtain rfl := Parsed.row.inj (h_row.symm.trans h_eq)
      rw [serialize_shortDevice, parse_of_sections h_again, shortDevice, if_neg h_some,
        repeated_written]
  · refine ⟨by rw [h_raw, serializeDeviceRow], fun row h_row => ?_⟩
    rw [h_raw] at h_row
    cases h_row

end PortReader

/-! ### The long syntax -/

section Long

variable {row : DeviceRow}

theorem get?_longDeviceEntry (k : String) : (longDeviceEntry row).get? k =
    if k = "permissions" ∧ row.permissions.truthy = true then some row.permissions
    else if k = "target" ∧ row.target.truthy = true then some row.target
    else if k = "source" then some (.text row.source)
    else none := by
  rw [longDeviceEntry]
  cases row.permissions.truthy <;> cases row.target.truthy <;> simp [Table.get?_set]

theorem keys_longDeviceEntry :
    ((longDeviceEntry row).keys.any fun k => !deviceFields.contains k) = false := by
  rw [shown_iff]
  intro k h_k
  rw [get?_longDeviceEntry]
  simp only [deviceFields, List.contains_iff_mem, List.mem_cons, List.not_mem_nil, or_false,
    not_or] at h_k
  simp [h_k]

end Long

namespace PortReader

variable (compose : PortReader)

/-- A text that is left out where it is empty. -/
theorem nameField_written {field : Option Value} (h : ∀ v, field = some v → v.isText) :
    compose.nameField (if (orText field "").truthy = true then some (orText field "") else none) ""
      = compose.nameField field "" := by
  rw [compose.nameField_orText h]
  cases h_truthy : (orText field "").truthy with
  | true => rfl
  | false =>
    rw [orText_empty h h_truthy]
    rfl

theorem orText_written {field : Option Value} (h : ∀ v, field = some v → v.isText) :
    orText (if (orText field "").truthy = true then some (orText field "") else none) ""
      = orText field "" := by
  cases h_truthy : (orText field "").truthy with
  | true => exact orText_some (orText_isNull h) ""
  | false =>
    rw [orText_empty h h_truthy]
    rfl

theorem keepsDevice_map {o : Table String Value}
    (h : ∀ k ∈ ["target", "permissions"], ∀ v, o.get? k = some v → v.isText) :
    compose.KeepsDevice (.map o) := by
  have h_raw (h_raw : parseDeviceEntry (.map o) = .raw (.map o)) :
      compose.KeepsDevice (.map o) := by
    refine ⟨by rw [h_raw, serializeDeviceRow], fun row h_row => ?_⟩
    rw [h_raw] at h_row
    cases h_row
  cases h_fields : o.keys.any fun k => !deviceFields.contains k with
  | true => exact h_raw (if_pos h_fields)
  | false =>
    by_cases h_text : ∃ source, o.get? "source" = some (.text source)
    · obtain ⟨source, h_source⟩ := h_text
      let row : DeviceRow := ⟨.long, source, orText (o.get? "target") "",
        orText (o.get? "permissions") ""⟩
      have h_target := h "target" (by simp)
      have h_permissions := h "permissions" (by simp)
      have h_row : parseDeviceEntry (.map o) = .row row := by
        rw [parseDeviceEntry, h_fields, h_source]
        rfl
      have h_written : serializeDeviceRow (.row row) = .map (longDeviceEntry row) := by
        rw [serializeDeviceRow, if_pos rfl]
      have h_get_source : (longDeviceEntry row).get? "source" = some (.text source) := by
        rw [get?_longDeviceEntry]
        rfl
      have h_get_target : (longDeviceEntry row).get? "target"
          = if row.target.truthy = true then some row.target else none := by
        rw [get?_longDeviceEntry]
        simp
      have h_get_permissions : (longDeviceEntry row).get? "permissions"
          = if row.permissions.truthy = true then some row.permissions else none := by
        rw [get?_longDeviceEntry]
        simp
      refine ⟨?_, fun row' h_eq => ?_⟩
      · have h_others : (fun k => if deviceFields.contains k then none
            else (longDeviceEntry row).get? k)
            = fun k => if deviceFields.contains k then none else o.get? k := by
          funext k
          by_cases h_k : deviceFields.contains k
          · rw [if_pos h_k, if_pos h_k]
          · rw [if_neg h_k, if_neg h_k, shown_iff.mp h_fields k h_k,
              shown_iff.mp keys_longDeviceEntry k h_k]
        rw [h_row, h_written, device, device, h_get_source, h_source, h_get_target,
          h_get_permissions, h_others, compose.nameField_written h_target,
          compose.nameField_written h_permissions]
      · obtain rfl := Parsed.row.inj (h_row.symm.trans h_eq)
        rw [h_written, parseDeviceEntry, keys_longDeviceEntry, h_get_source, h_get_target,
          h_get_permissions]
        refine congrArg Parsed.row ?_
        rw [orText_written h_target, orText_written h_permissions]
        exact (if_neg (by simp [row])).symm
    · refine h_raw ?_
      rw [parseDeviceEntry, h_fields]
      cases h_get : o.get? "source" with
      | none => rfl
      | some v =>
        cases v with
        | text source => exact absurd ⟨source, h_get⟩ h_text
        | _ => rfl

/-- **Entries of the right types** outlast being written back, but for a repeated target. -/
theorem keepsDevice {e : Entry} (h : DeviceTyped e) : compose.KeepsDevice e := by
  cases e with
  | text entry => exact compose.keepsDevice_text entry
  | map o => exact compose.keepsDevice_map h
  | _ => exact ⟨rfl, by rintro row ⟨⟩⟩

end PortReader

theorem serialize_rawPort {e r : Entry} (h : parsePortEntry e = .raw r) :
    serializePortRow (.raw r) = e := by
  rw [serializePortRow]
  cases e with
  | text entry =>
    rw [parsePortEntry] at h
    split at h
    · cases h
    · exact (Parsed.raw.inj h).symm
  | map o =>
    rw [parsePortEntry] at h
    split at h
    · exact (Parsed.raw.inj h).symm
    · cases h
  | integer n => cases h
  | list items =>
    cases items with
    | nil => cases h
    | cons item items => exact (Parsed.raw.inj h).symm
  | _ => exact (Parsed.raw.inj h).symm

theorem serialize_rawDevice {e r : Entry} (h : parseDeviceEntry e = .raw r) :
    serializeDeviceRow (.raw r) = e := by
  rw [serializeDeviceRow]
  cases e with
  | text entry =>
    obtain ⟨source, target, permissions, h_some, h_sections⟩ | h_raw := sections_or_raw entry
    · rw [parse_of_sections h_sections, shortDevice, if_neg h_some] at h
      cases h
    · exact Parsed.raw.inj (h.symm.trans h_raw)
  | map o =>
    rw [parseDeviceEntry] at h
    split at h
    · exact (Parsed.raw.inj h).symm
    · split at h
      · cases h
      · exact (Parsed.raw.inj h).symm
  | _ => exact (Parsed.raw.inj h).symm

/-- **Main result.** Entries of the right types keep their meaning and their rows, and raw
entries are returned. -/
theorem rows_kept (compose : PortReader) :
    (∀ e, PortTyped e → compose.KeepsPort e) ∧ (∀ e, DeviceTyped e → compose.KeepsDevice e) ∧
      (∀ e r, parsePortEntry e = .raw r → serializePortRow (.raw r) = e) ∧
      ∀ e r, parseDeviceEntry e = .raw r → serializeDeviceRow (.raw r) = e :=
  ⟨fun _ h => compose.keepsPort h, fun _ h => compose.keepsDevice h,
    fun _ _ h => serialize_rawPort h, fun _ _ h => serialize_rawDevice h⟩

/-- Compose, where it takes texts and numbers for ports and nothing but texts for names. -/
def strictPorts : PortReader where
  toComposeReader := strictReader
  port
    | .text s => some s
    | .number x => some (String.ofList (numberText x))
    | _ => none
  port_number _ := rfl

/-- A number, a named port and a device with everything written. -/
theorem rows_kept_web :
    strictPorts.KeepsPort (.integer 80) ∧ strictPorts.KeepsPort (.map ((Table.empty.set "target"
      (.number (.finite 80))).set "name" (.text "web"))) ∧
    strictPorts.KeepsDevice (.text "/dev/a:/dev/b:r") := by
  obtain ⟨h_port, h_device, -, -⟩ := rows_kept strictPorts
  refine ⟨h_port _ ⟨by decide, by decide⟩, h_port _ ⟨?_, ?_⟩, h_device _ trivial⟩
  · intro k h_k v h_get
    obtain rfl | rfl : k = "published" ∨ k = "target" := by simpa using h_k
    · cases h_get
    · obtain rfl := Option.some.inj h_get
      exact trivial
  · intro k h_k v h_get
    obtain rfl | rfl : k = "protocol" ∨ k = "name" := by simpa using h_k
    · cases h_get
    · obtain rfl := Option.some.inj h_get
      exact trivial

/-- **Permissions without a target**: the row that is found again has a target. -/
theorem target_repeated : ∃ row, parseDeviceEntry (.text "/dev/a::r") = .row row ∧
    ∀ kind, parseDeviceEntry (serializeDeviceRow (.row row)) ≠ .row { row with kind } := by
  have h_row : parseDeviceEntry (.text "/dev/a::r")
      = .row ⟨.short, "/dev/a", .text "", .text "r"⟩ := by
    have h_sections : Sections "/dev/a::r".toList "/dev/a".toList [] ['r'] := .three (by decide)
    rw [parse_of_sections h_sections]
    rfl
  have h_again := (strictPorts.keepsDevice_text "/dev/a::r").row _ h_row
  refine ⟨_, h_row, fun kind h_eq => ?_⟩
  have h_target := congrArg DeviceRow.target (Parsed.row.inj (h_again.symm.trans h_eq))
  exact absurd (Value.text.inj h_target) (by decide)

end ServerCentral.Compose
