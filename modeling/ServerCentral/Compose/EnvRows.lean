import ServerCentral.Framework.Doubles
import ServerCentral.Framework.Splitting
import ServerCentral.Framework.Table

/-!
# The rows of an environment

`environment` is a list of texts `NAME=VALUE` or a map. The editor shows either as rows of a key
and a value and writes the rows back in the form they had.

What it defines for the container is a `Binding` for each name: a value, or that the variable is
passed through from the host. A name without `=`, like a null in a map, is passed through, which
a row cannot say. `environment_kept_iff` says which environments have nothing of that kind.
-/

open Framework

namespace ServerCentral.Compose

/-! ### The source -/

inductive Scalar where
  | null
  | bool (b : Bool)
  | number (n : Number)
  | text (s : String)

inductive Environment where
  | absent
  | list (entries : List String)
  | map (vars : Table String Scalar)

structure EnvRow where
  key : String
  value : String

/-- `value == null ? "" : String(value)` -/
def Scalar.string : Scalar → String
  | .null => ""
  | .bool b => if b then "true" else "false"
  | .number n => String.ofList (numberText n)
  | .text s => s

/-- The row of an entry of a list. -/
def entryRow (s : String) : EnvRow :=
  match splitFirst '=' s.toList with
  | some (key, value) => ⟨String.ofList key, String.ofList value⟩
  | none => ⟨s, ""⟩

def parseEnvironment : Environment → List EnvRow × Bool
  | .list entries => (entries.map entryRow, false)
  | .map vars => (vars.entries.map fun (key, value) => ⟨key, value.string⟩, true)
  | .absent => ([], false)

/-- `o[key] = value`, which does nothing for a text under `__proto__`. -/
def assign (o : Table String Scalar) (row : EnvRow) : Table String Scalar :=
  if row.key = "__proto__" then o else o.set row.key (.text row.value)

def serializeEnvironment (rows : List EnvRow) (asObject : Bool) : Environment :=
  let filled := rows.filter fun r => r.key ≠ ""
  if asObject then .map (filled.foldl assign .empty)
  else .list (filled.map fun r => r.key ++ "=" ++ r.value)

/-- What is left of an environment that is edited. -/
def Environment.rewritten (env : Environment) : Environment :=
  serializeEnvironment (parseEnvironment env).1 (parseEnvironment env).2

/-! ### What an environment means -/

/-- What the container finds under a name. -/
inductive Binding where
  | set (value : String)
  /-- The value of the host. -/
  | host

/-- The name that an entry of a list defines, and what it is bound to. -/
def entryBinding (s : String) : String × Binding :=
  match splitFirst '=' s.toList with
  | some (name, value) => (String.ofList name, .set (String.ofList value))
  | none => (s, .host)

section Meaning

-- how compose writes a number
variable (numberString : Number → String)

def scalarBinding : Scalar → Binding
  | .null => .host
  | .bool b => .set (if b then "true" else "false")
  | .number n => .set (numberString n)
  | .text s => .set s

/-- What an environment binds a name to. The last entry of a list that defines it counts. -/
def Environment.binding : Environment → String → Option Binding
  | .absent, _ => none
  | .list entries, name =>
    (entries.filter fun s => (entryBinding s).1 = name).getLast?.map fun s => (entryBinding s).2
  | .map vars, name => (vars.get? name).map (scalarBinding numberString)

/-- **The environments that rows can say.** In a list every entry has a name, and behind one
without `=` the name is defined again by one that has it. In a map no name is empty or
`__proto__`, no value is null, and compose writes the numbers as the editor does. -/
def Environment.Rowed : Environment → Prop
  | .absent => True
  | .list entries =>
    (∀ s ∈ entries, (entryBinding s).1 ≠ "") ∧
      ∀ pre s post, entries = pre ++ s :: post → '=' ∉ s.toList →
        ∃ value, s ++ "=" ++ value ∈ post
  | .map vars =>
    (∀ name ∈ vars.keys, name ≠ "" ∧ name ≠ "__proto__") ∧
      ∀ v ∈ vars.values, v ≠ .null ∧ ∀ n, v = .number n → numberString n = String.ofList (numberText n)

end Meaning

/-! ### Lists -/

theorem entryRow_key (s : String) : (entryRow s).key = (entryBinding s).1 := by
  rw [entryRow, entryBinding]
  cases splitFirst '=' s.toList <;> rfl

theorem entryBinding_of_eq {s : String} (h : '=' ∈ s.toList) :
    entryBinding s = ((entryRow s).key, .set (entryRow s).value) := by
  rw [entryRow, entryBinding]
  cases h_split : splitFirst '=' s.toList with
  | none => exact absurd h (splitFirst_eq_none.mp h_split)
  | some parts => rfl

theorem entryBinding_of_bare {s : String} (h : '=' ∉ s.toList) : entryBinding s = (s, .host) := by
  rw [entryBinding, splitFirst_eq_none.mpr h]

/-- A name ends at the first `=`. -/
theorem entryBinding_pair {key : String} (h : '=' ∉ key.toList) (value : String) :
    entryBinding (key ++ "=" ++ value) = (key, .set value) := by
  have h_split : splitFirst '=' (key ++ "=" ++ value).toList = some (key.toList, value.toList) :=
    splitFirst_eq_some.mpr ⟨by simp, h⟩
  rw [entryBinding, h_split]
  simp

theorem eq_notMem_key (s : String) : '=' ∉ (entryRow s).key.toList := by
  rw [entryRow]
  cases h_split : splitFirst '=' s.toList with
  | none => exact splitFirst_eq_none.mp h_split
  | some parts =>
    simpa using (splitFirst_eq_some.mp h_split).2

theorem eq_pair_of_eq {s : String} (h : '=' ∈ s.toList) :
    s = (entryRow s).key ++ "=" ++ (entryRow s).value := by
  rw [entryRow]
  cases h_split : splitFirst '=' s.toList with
  | none => exact absurd h (splitFirst_eq_none.mp h_split)
  | some parts =>
    apply String.toList_inj.mp
    rw [(splitFirst_eq_some.mp h_split).1]
    simp

variable {numberString : Number → String} {entries : List String}

/-- A list that is written back binds each name to a value. -/
theorem binding_rewritten_list (name : String) :
    (Environment.list entries).rewritten.binding numberString name =
      if name = "" then none
      else (entries.filter fun s => (entryBinding s).1 = name).getLast?.map fun s =>
        .set (entryRow s).value := by
  have h_pair : ∀ s, entryBinding ((entryBinding s).1 ++ "=" ++ (entryRow s).value)
      = ((entryBinding s).1, .set (entryRow s).value) := by
    intro s
    rw [← entryRow_key]
    exact entryBinding_pair (eq_notMem_key s) _
  have h_list : (Environment.list entries).rewritten
      = .list ((entries.filter fun s => (entryBinding s).1 ≠ "").map fun s =>
        (entryBinding s).1 ++ "=" ++ (entryRow s).value) := by
    simp [Environment.rewritten, parseEnvironment, serializeEnvironment, List.filter_map,
      Function.comp_def, entryRow_key]
  rw [h_list, Environment.binding, List.filter_map, List.getLast?_map, Option.map_map,
    List.filter_filter]
  simp only [Function.comp_def, h_pair]
  by_cases h_name : name = ""
  · simp [h_name]
  · rw [if_neg h_name]
    congr 2
    refine List.filter_congr fun s _ => ?_
    by_cases h : (entryBinding s).1 = name
    · simp [h, h_name]
    · simp [h]

/-- The last entry of each name has `=`. -/
theorem last_pair_iff :
    (∀ name s, (entries.filter fun s => (entryBinding s).1 = name).getLast? = some s →
      '=' ∈ s.toList) ↔
    ∀ pre s post, entries = pre ++ s :: post → '=' ∉ s.toList → ∃ value, s ++ "=" ++ value ∈ post := by
  constructor
  · rintro h pre s post rfl h_bare
    have h_name : (entryBinding s).1 = s := by rw [entryBinding_of_bare h_bare]
    -- the last entry that defines the name stands behind this one
    have h_filter : (pre ++ s :: post).filter (fun t => (entryBinding t).1 = s)
        = pre.filter (fun t => (entryBinding t).1 = s) ++ s ::
          post.filter fun t => (entryBinding t).1 = s := by
      rw [List.filter_append, List.filter_cons_of_pos (by simpa using h_name)]
    have h_last := h s
    rw [h_filter, List.getLast?_append_cons] at h_last
    obtain ⟨t, h_t⟩ : ∃ t, (s :: post.filter fun t => (entryBinding t).1 = s).getLast? = some t :=
      ⟨_, List.getLast?_eq_some_getLast (List.cons_ne_nil _ _)⟩
    have h_eq := h_last t h_t
    obtain rfl | h_mem := List.mem_cons.mp (List.mem_of_getLast? h_t)
    · exact absurd h_eq h_bare
    · obtain ⟨h_post, h_key⟩ := List.mem_filter.mp h_mem
      have h_key : (entryRow t).key = s := (entryRow_key t).trans (of_decide_eq_true h_key)
      refine ⟨(entryRow t).value, ?_⟩
      rw [← h_key, ← eq_pair_of_eq h_eq]
      exact h_post
  · intro h name s h_last
    by_contra h_bare
    obtain ⟨init, h_init⟩ := List.getLast?_eq_some_iff.mp h_last
    obtain ⟨pre, rest, rfl, -, h_rest⟩ := List.filter_eq_append_iff.mp h_init
    obtain ⟨skipped, post, rfl, -, h_s, h_post⟩ := List.filter_eq_cons_iff.mp h_rest
    obtain ⟨value, h_mem⟩ := h (pre ++ skipped) s post (by rw [List.append_assoc]) h_bare
    have h_name : s = name := by
      have h_s := of_decide_eq_true h_s
      rwa [entryBinding_of_bare h_bare] at h_s
    have h_key : (entryBinding (s ++ "=" ++ value)).1 = name := by
      rw [entryBinding_pair h_bare, h_name]
    exact List.filter_eq_nil_iff.mp h_post _ h_mem (decide_eq_true h_key)

/-- Writing a list back keeps what it defines. -/
theorem list_kept_iff :
    (∀ name, (Environment.list entries).rewritten.binding numberString name
      = (Environment.list entries).binding numberString name) ↔
    (Environment.list entries).Rowed numberString := by
  rw [Environment.Rowed, ← last_pair_iff]
  simp only [binding_rewritten_list]
  constructor
  · intro h
    have h_names : ∀ s ∈ entries, (entryBinding s).1 ≠ "" := by
      intro s h_s h_name
      have h_none := h ""
      rw [if_pos rfl, Environment.binding, eq_comm, Option.map_eq_none_iff,
        List.getLast?_eq_none_iff, List.filter_eq_nil_iff] at h_none
      exact h_none s h_s (decide_eq_true h_name)
    refine ⟨h_names, fun name s h_last => ?_⟩
    obtain ⟨h_s, h_key⟩ := List.mem_filter.mp (List.mem_of_getLast? h_last)
    have h_key : (entryBinding s).1 = name := of_decide_eq_true h_key
    have h_same := h name
    rw [if_neg (h_key ▸ h_names s h_s), Environment.binding, h_last, Option.map_some,
      Option.map_some] at h_same
    by_contra h_bare
    rw [entryBinding_of_bare h_bare] at h_same
    cases h_same
  · rintro ⟨h_names, h_last⟩ name
    rw [Environment.binding]
    cases h_get : (entries.filter fun s => (entryBinding s).1 = name).getLast? with
    | none => rw [Option.map_none, Option.map_none, ite_self]
    | some s =>
      obtain ⟨h_s, h_key⟩ := List.mem_filter.mp (List.mem_of_getLast? h_get)
      have h_key : (entryBinding s).1 = name := of_decide_eq_true h_key
      rw [if_neg (h_key ▸ h_names s h_s), Option.map_some, Option.map_some,
        entryBinding_of_eq (h_last name s h_get)]

/-! ### Maps -/

/-- Rows with different keys are all found, but for `__proto__`. -/
theorem get?_foldl_assign {rows : List EnvRow} {o : Table String Scalar}
    (h : (rows.map EnvRow.key).Nodup) (h_fresh : ∀ row ∈ rows, o.get? row.key = none)
    {name : String} {v : Scalar} :
    (rows.foldl assign o).get? name = some v ↔ o.get? name = some v ∨
      name ≠ "__proto__" ∧ ∃ row ∈ rows, row.key = name ∧ v = .text row.value := by
  induction rows generalizing o with
  | nil => simp
  | cons row rows ih =>
    obtain ⟨h_new, h_rows⟩ := List.nodup_cons.mp h
    have h_row := h_fresh row List.mem_cons_self
    have h_other : ∀ row' ∈ rows, row'.key ≠ row.key := fun row' h_row' h_eq =>
      h_new (List.mem_map.mpr ⟨row', h_row', h_eq⟩)
    have h_rest : ∀ row' ∈ rows, o.get? row'.key = none := fun row' h_row' =>
      h_fresh row' (List.mem_cons_of_mem _ h_row')
    rw [List.foldl_cons, assign]
    by_cases h_proto : row.key = "__proto__"
    · -- the row is lost
      rw [if_pos h_proto, ih h_rows h_rest]
      refine or_congr_right (and_congr_right fun h_name => ?_)
      simp [h_proto, h_name.symm]
    · have h_fresh' : ∀ row' ∈ rows, (o.set row.key (.text row.value)).get? row'.key = none := by
        intro row' h_row'
        rw [Table.get?_set_of_ne _ _ (h_other row' h_row')]
        exact h_rest row' h_row'
      rw [if_neg h_proto, ih h_rows h_fresh', Table.get?_set]
      by_cases h_name : name = row.key
      · subst h_name
        rw [if_pos rfl, h_row]
        simp [h_proto, eq_comm]
      · rw [if_neg h_name]
        simp [Ne.symm h_name]

variable {vars : Table String Scalar}

theorem binding_rewritten_map {name : String} {b : Binding} :
    (Environment.map vars).rewritten.binding numberString name = some b ↔
      name ≠ "" ∧ name ≠ "__proto__" ∧ ∃ v, vars.get? name = some v ∧ b = .set v.string := by
  let rows : List EnvRow := vars.entries.map fun e => ⟨e.1, e.2.string⟩
  have h_keys : ((rows.filter fun r => r.key ≠ "").map EnvRow.key).Nodup := by
    refine List.Nodup.sublist (List.filter_sublist.map _) ?_
    rw [List.map_map]
    exact vars.nodup
  have h_rewritten : (Environment.map vars).rewritten
      = .map ((rows.filter fun r => r.key ≠ "").foldl assign .empty) := rfl
  rw [h_rewritten, Environment.binding, Option.map_eq_some_iff]
  simp only [get?_foldl_assign h_keys fun _ _ => Table.get?_empty _, Table.get?_empty, reduceCtorEq,
    false_or]
  constructor
  · rintro ⟨_, ⟨h_proto, row, h_row, rfl, rfl⟩, rfl⟩
    obtain ⟨h_mem, h_key⟩ := List.mem_filter.mp h_row
    obtain ⟨e, h_e, rfl⟩ := List.mem_map.mp h_mem
    exact ⟨of_decide_eq_true h_key, h_proto, e.2, Table.get?_eq_some_iff.mpr h_e, rfl⟩
  · rintro ⟨h_name, h_proto, v, h_get, rfl⟩
    refine ⟨.text v.string, ⟨h_proto, ⟨name, v.string⟩, ?_, rfl, rfl⟩, rfl⟩
    refine List.mem_filter.mpr ⟨?_, decide_eq_true h_name⟩
    exact List.mem_map.mpr ⟨(name, v), Table.get?_eq_some_iff.mp h_get, rfl⟩

/-- A scalar is bound to the text of its row unless it is null or a number that compose writes
otherwise. -/
theorem scalarBinding_eq_iff {v : Scalar} : scalarBinding numberString v = .set v.string ↔
    v ≠ .null ∧ ∀ n, v = .number n → numberString n = String.ofList (numberText n) := by
  cases v with
  | null => simp [scalarBinding]
  | bool b => simp [scalarBinding, Scalar.string]
  | number n => simp [scalarBinding, Scalar.string]
  | text s => simp [scalarBinding, Scalar.string]

/-- Writing a map back keeps what it defines. -/
theorem map_kept_iff :
    (∀ name, (Environment.map vars).rewritten.binding numberString name
      = (Environment.map vars).binding numberString name) ↔
    (Environment.map vars).Rowed numberString := by
  have h_same : (∀ name, (Environment.map vars).rewritten.binding numberString name
      = (Environment.map vars).binding numberString name) ↔
      ∀ name v, vars.get? name = some v → name ≠ "" ∧ name ≠ "__proto__" ∧
        scalarBinding numberString v = .set v.string := by
    constructor
    · intro h name v h_get
      have h_binding : (Environment.map vars).binding numberString name
          = some (scalarBinding numberString v) := by
        rw [Environment.binding, h_get, Option.map_some]
      rw [← h name] at h_binding
      obtain ⟨h_name, h_proto, w, h_w, h_eq⟩ := (binding_rewritten_map).mp h_binding
      obtain rfl := Option.some.inj (h_get.symm.trans h_w)
      exact ⟨h_name, h_proto, h_eq⟩
    · intro h name
      ext b
      rw [binding_rewritten_map, Environment.binding, Option.map_eq_some_iff]
      constructor
      · rintro ⟨-, -, v, h_get, rfl⟩
        exact ⟨v, h_get, (h name v h_get).2.2⟩
      · rintro ⟨v, h_get, rfl⟩
        obtain ⟨h_name, h_proto, h_eq⟩ := h name v h_get
        exact ⟨h_name, h_proto, v, h_get, h_eq⟩
  rw [h_same, Environment.Rowed]
  constructor
  · intro h
    refine ⟨fun name h_mem => ?_, fun v h_mem => ?_⟩
    · obtain ⟨⟨key, v⟩, h_e, rfl⟩ := List.mem_map.mp h_mem
      obtain ⟨h_name, h_proto, -⟩ := h key v (Table.get?_eq_some_iff.mpr h_e)
      exact ⟨h_name, h_proto⟩
    · obtain ⟨name, h_get⟩ := Table.get?_of_mem_values.mp h_mem
      exact (scalarBinding_eq_iff).mp (h name v h_get).2.2
  · rintro ⟨h_names, h_values⟩ name v h_get
    have h_mem : name ∈ vars.keys := List.mem_map_of_mem (Table.get?_eq_some_iff.mp h_get)
    have h_value := h_values v (Table.get?_of_mem_values.mpr ⟨name, h_get⟩)
    exact ⟨(h_names name h_mem).1, (h_names name h_mem).2, (scalarBinding_eq_iff).mpr h_value⟩

/-- **Main result.** An environment that is written back defines what it defined exactly if
rows can say it. -/
theorem environment_kept_iff (numberString : Number → String) (env : Environment) :
    (∀ name, env.rewritten.binding numberString name = env.binding numberString name) ↔
      env.Rowed numberString := by
  cases env with
  | absent => exact iff_of_true (fun name => rfl) trivial
  | list entries => exact list_kept_iff
  | map vars => exact map_kept_iff

/-- Compose, where it writes numbers as the editor does. -/
def plainNumber (n : Number) : String := String.ofList (numberText n)

/-- **A variable that is passed through** from the host is set to the empty text, in a list and
in a map. -/
theorem host_variable_emptied :
    (¬ ∀ name, (Environment.list ["HOME"]).rewritten.binding plainNumber name
      = (Environment.list ["HOME"]).binding plainNumber name) ∧
    ¬ ∀ name, (Environment.map (Table.empty.set "HOME" .null)).rewritten.binding plainNumber name
      = (Environment.map (Table.empty.set "HOME" .null)).binding plainNumber name := by
  constructor
  · intro h
    have h_home := h "HOME"
    rw [binding_rewritten_list, if_neg (by decide)] at h_home
    cases h_home
  · intro h
    cases h "HOME"

end ServerCentral.Compose
