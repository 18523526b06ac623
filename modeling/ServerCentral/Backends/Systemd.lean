import ServerCentral.Backends.Docker
import ServerCentral.Framework.Doubles

/-!
# The units of a host

`systemctl` takes options anywhere among its words, so a unit that begins with `-` is an option
there. `journalctl` gets the unit as the value of `-u`, whatever it begins with; but the value of
its `-n` is optional, and a word behind it that is no count is read on its own.

`units_read_iff` says for which calls the commands are read as they are meant.
-/

open Framework

namespace ServerCentral.Backends

open Auth (trim)

namespace Systemd

variable {α : Type}

/-! ### The backend -/

/-- `/^[A-Za-z0-9_.@:\\-]+$/` -/
def safeUnit (unit : String) : Bool :=
  unit ≠ "" && unit.toList.all fun c => c.isAlphanum || c ∈ "_.@:\\-".toList

def assertUnit (unit : String) : HostScript Unit :=
  Script.require (safeUnit unit) s!"Invalid unit name: {unit}"

def serviceActions : List String := ["start", "stop", "restart", "enable", "disable"]

def assertServiceAction (action : String) : HostScript Unit :=
  Script.require (action ∈ serviceActions) s!"Unsupported service action: {action}"

def journalWindows : List (String × String) :=
  [("15m", "15 min ago"), ("1h", "1 hour ago"), ("6h", "6 hours ago"), ("24h", "24 hours ago")]

/-- The value of `--since` for a window that is known. -/
def journalSince (since : Option String) : Option String := since.bind fun token => List.lookup token journalWindows

def priorities : List String :=
  ["emerg", "alert", "crit", "err", "warning", "notice", "info", "debug"]

/-- The value of `-p` for a priority that is known. -/
def journalPriority (priority : Option String) : Option String :=
  priority.filter fun p => priorities.contains p

/-- An option with a value, if there is one. -/
def valueArgs (name : String) : Option String → Argv
  | some value => [.word name, .word value]
  | none => []

def systemdServiceAction (unit action : String) : HostScript Unit := do
  assertUnit unit
  assertServiceAction action
  let res ← run [.word "systemctl", .caller action, .caller unit]
  Script.require (res.code = 0) (orElse
    (((trim (res.stdout ++ res.stderr)).splitOn "\n").getLast?.getD "") s!"systemctl {action} failed")

def systemdServiceLogs (unit : String) (limit : Option Number) (since priority order : Option String) :
    HostScript String := do
  assertUnit unit
  let res ← run ([.word "journalctl", .word "-u", .caller unit, .word "-n",
    .caller (String.ofList (floorText (limit.getD (.finite 300)))), .word "--no-pager",
    .word "--output", .word "short-iso"] ++ valueArgs "--since" (journalSince since) ++
    valueArgs "-p" (journalPriority priority) ++
    (if order = some "newest" then [.word "--reverse"] else []))
  pure (Docker.logOutput res)

def systemdUnitFile (unit : String) : HostScript String := do
  assertUnit unit
  let res ← run [.word "systemctl", .word "cat", .caller unit]
  pure (Docker.logOutput res)

/-! ### How the tools read their words -/

/-- The options and the operands of `systemctl`, in any order up to `--`. -/
def readSystemctl : List String → List String × List String
  | [] => ([], [])
  | w :: words =>
    if w = "--" then ([], words)
    else
      let (options, operands) := readSystemctl words
      if isOption w ∧ w ≠ "-" then (w :: options, operands) else (options, w :: operands)

/-- A text that is read as a number of lines. -/
def isCount (w : String) : Bool := w ≠ "" && w.toList.all (isDigitOf 10)

/-- The options of `journalctl` with their values; nothing where a word is left over or is
unknown here. A word behind `-n` is its value if it is a count. -/
def readJournalctl : List String → Option (List (String × Option String))
  | [] => some []
  | [w] => if w ∈ ["--no-pager", "--reverse", "-n"] then some [(w, none)] else none
  | w :: v :: words =>
    if w ∈ ["-u", "--output", "--since", "-p"] ∨ w = "-n" ∧ isCount v then
      (readJournalctl words).map ((w, some v) :: ·)
    else if w ∈ ["--no-pager", "--reverse", "-n"] then
      (readJournalctl (v :: words)).map ((w, none) :: ·)
    else none

/-- The options of the source, but for `-u`, with their values. -/
def FixedOption : String × Option String → Prop
  | ("-n", some value) => isCount value
  | ("--no-pager", none) | ("--reverse", none) => True
  | ("--output", some value) => value = "short-iso"
  | ("--since", some value) => value ∈ journalWindows.map Prod.snd
  | ("-p", some value) => value ∈ priorities
  | _ => False

/-- An operand that is not empty and does not begin with `-`. -/
def Operand (unit : String) : Prop := unit ≠ "" ∧ isOption unit = false

inductive SystemdCall where
  | serviceAction (unit action : String)
  | serviceLogs (unit : String) (limit : Option Number) (since priority order : Option String)
  | unitFile (unit : String)
  deriving DecidableEq, Repr

namespace SystemdCall

def script : SystemdCall → HostScript Unit
  | serviceAction unit action => systemdServiceAction unit action
  | serviceLogs unit limit since priority order => do
    let _ ← systemdServiceLogs unit limit since priority order
    pure ()
  | unitFile unit => do
    let _ ← systemdUnitFile unit
    pure ()

/-- All checks of a call. -/
def Accepted : SystemdCall → Prop
  | serviceAction unit action => safeUnit unit = true ∧ action ∈ serviceActions
  | serviceLogs unit _ _ _ _ => safeUnit unit = true
  | unitFile unit => safeUnit unit = true

/-- The command is read with the unit in its place, and with words of the source beside it. -/
def ReadAs (call : SystemdCall) (argv : List String) : Prop :=
  match call with
  | serviceAction unit action => ∃ words, argv = "systemctl" :: words ∧
    readSystemctl words = ([], [action, unit]) ∧ Operand unit ∧ action ∈ serviceActions
  | serviceLogs unit _ _ _ _ => ∃ words options, argv = "journalctl" :: words ∧
    readJournalctl words = some (("-u", some unit) :: options) ∧ ∀ o ∈ options, FixedOption o
  | unitFile unit => ∃ words, argv = "systemctl" :: words ∧
    readSystemctl words = ([], ["cat", unit]) ∧ Operand unit

/-- The inputs for which there is such a command. -/
def Fits : SystemdCall → Prop
  | serviceAction unit action => isOption unit = false ∧ action ∈ serviceActions
  | serviceLogs _ limit _ _ _ => ∀ x, limit = some x → Countable x
  | unitFile unit => isOption unit = false

/-- The command of a call that passes its checks. -/
def argv : SystemdCall → Argv
  | serviceAction unit action => [.word "systemctl", .caller action, .caller unit]
  | serviceLogs unit limit since priority order =>
    [.word "journalctl", .word "-u", .caller unit, .word "-n",
      .caller (String.ofList (floorText (limit.getD (.finite 300)))), .word "--no-pager",
      .word "--output", .word "short-iso"] ++ valueArgs "--since" (journalSince since) ++
      valueArgs "-p" (journalPriority priority) ++
      (if order = some "newest" then [.word "--reverse"] else [])
  | unitFile unit => [.word "systemctl", .word "cat", .caller unit]

end SystemdCall

/-! ### Reading the commands -/

theorem isOption_word {w : String} (h : w ∈ serviceActions ∨ w = "cat") :
    isOption w = false ∧ w ≠ "--" := by
  obtain h | rfl := h
  · simp only [serviceActions, List.mem_cons, List.not_mem_nil, or_false] at h
    obtain rfl | rfl | rfl | rfl | rfl := h <;> decide
  · decide

theorem readSystemctl_unit {verb unit : String} (h_verb : verb ∈ serviceActions ∨ verb = "cat")
    (h_unit : isOption unit = false) : readSystemctl [verb, unit] = ([], [verb, unit]) := by
  obtain ⟨h_word, h_dashes⟩ := isOption_word h_verb
  have h_other : unit ≠ "--" := by
    rintro rfl
    exact absurd h_unit (by decide)
  simp [readSystemctl, h_word, h_dashes, h_unit, h_other]

theorem isCount_floorText {x : Number} :
    isCount (String.ofList (floorText x)) = true ↔ Countable x := by
  have h_some : String.ofList (floorText x) ≠ "" := by
    intro h_nil
    exact floorText_ne_nil x (by simpa using congrArg String.toList h_nil)
  rw [isCount, Bool.and_eq_true, String.toList_ofList, all_digits_floorText]
  simp [h_some]

/-- The text of a number is none of the options. -/
theorem floorText_unknown (x : Number) : String.ofList (floorText x) ∉
    ["-u", "--output", "--since", "-p", "--no-pager", "--reverse", "-n"] := by
  intro h_mem
  obtain ⟨w, h_w, h_eq⟩ : ∃ w ∈ ["-u", "--output", "--since", "-p", "--no-pager", "--reverse", "-n"],
      w.toList = floorText x := ⟨_, h_mem, by simp⟩
  cases x with
  | nan =>
    revert h_eq
    revert w
    decide
  | infinite negative =>
    revert h_eq
    revert w
    cases negative <;> decide
  | finite value =>
    -- Each of the options has a letter that is in no number.
    have h_letter : ∀ w ∈ ["-u", "--output", "--since", "-p", "--no-pager", "--reverse", "-n"],
        w.toList.any fun c => !(isDigitOf 10 c || ['-', '.', 'e', '+'].contains c) := by decide
    obtain ⟨c, h_c, h_fails⟩ := List.any_eq_true.mp (h_letter w h_w)
    have h_none : ¬(isDigitOf 10 c = true ∨ c ∈ ['-', '.', 'e', '+']) := by
      simpa only [Bool.not_eq_true', ← Bool.not_eq_true, Bool.or_eq_true, List.contains_iff_mem]
        using h_fails
    rw [h_eq] at h_c
    exact h_none (mem_wholeText h_c)

theorem journalSince_mem {since : Option String} {value : String}
    (h : journalSince since = some value) : value ∈ journalWindows.map Prod.snd := by
  obtain ⟨token, -, h_lookup⟩ := Option.bind_eq_some_iff.mp h
  have h_mem : (token, value) ∈ journalWindows := by
    obtain ⟨before, after, h_split, -⟩ := List.lookup_eq_some_iff (l := journalWindows).mp h_lookup
    rw [h_split]
    exact List.mem_append_right _ List.mem_cons_self
  exact List.mem_map_of_mem h_mem

theorem journalPriority_mem {priority : Option String} {value : String}
    (h : journalPriority priority = some value) : value ∈ priorities := by
  obtain ⟨rfl, h_value⟩ := Option.filter_eq_some_iff.mp h
  simpa using h_value

/-- The options behind the first ones. -/
theorem readJournalctl_rest (since priority order : Option String) :
    ∃ options, readJournalctl ((valueArgs "--since" (journalSince since) ++
      valueArgs "-p" (journalPriority priority) ++
      (if order = some "newest" then [Arg.word "--reverse"] else [])).map Arg.text) = some options ∧
      ∀ o ∈ options, FixedOption o := by
  have h_order : ∃ options, readJournalctl
      ((if order = some "newest" then [Arg.word "--reverse"] else []).map Arg.text) = some options ∧
      ∀ o ∈ options, FixedOption o := by
    split
    · exact ⟨[("--reverse", none)], rfl, by simp [FixedOption]⟩
    · exact ⟨[], rfl, nofun⟩
  obtain ⟨options, h_options, h_fixed⟩ := h_order
  have h_value : ∀ (name : String) (value : Option String) (words : List String) options,
      name ∈ ["--since", "-p"] → (∀ v, value = some v → FixedOption (name, some v)) →
      readJournalctl words = some options → (∀ o ∈ options, FixedOption o) →
      ∃ options', readJournalctl ((valueArgs name value).map Arg.text ++ words) = some options' ∧
        ∀ o ∈ options', FixedOption o := by
    intro name value words options h_name h_fixed h_words h_options
    cases value with
    | none => exact ⟨options, h_words, h_options⟩
    | some v =>
      refine ⟨(name, some v) :: options, ?_, ?_⟩
      · have h_known : name ∈ ["-u", "--output", "--since", "-p"] := by
          simp only [List.mem_cons, List.not_mem_nil, or_false] at h_name ⊢
          exact .inr (.inr h_name)
        show readJournalctl (name :: v :: words) = _
        rw [readJournalctl, if_pos (.inl h_known), h_words]
        rfl
      · intro o h_o
        obtain rfl | h_o := List.mem_cons.mp h_o
        · exact h_fixed v rfl
        · exact h_options o h_o
  obtain ⟨options', h_options', h_fixed'⟩ := h_value "-p" (journalPriority priority) _ options
    (by decide) (fun v h_v => journalPriority_mem h_v) h_options h_fixed
  rw [List.append_assoc, List.map_append, List.map_append]
  exact h_value "--since" (journalSince since) _ options' (by decide)
    (fun v h_v => journalSince_mem h_v) h_options' h_fixed'

/-- **How a command is read** once the checks are passed: as meant exactly where it can be. -/
theorem SystemdCall.readAs_iff {call : SystemdCall} (h : call.Accepted) :
    call.ReadAs (call.argv.map Arg.text) ↔ call.Fits := by
  have h_some : ∀ unit, safeUnit unit = true → unit ≠ "" := by
    intro unit h_unit
    rw [safeUnit, Bool.and_eq_true] at h_unit
    exact of_decide_eq_true h_unit.1
  cases call with
  | serviceAction unit action =>
    constructor
    · rintro ⟨words, -, -, h_operand, h_action⟩
      exact ⟨h_operand.2, h_action⟩
    · rintro ⟨h_unit, h_action⟩
      exact ⟨[action, unit], rfl, readSystemctl_unit (.inl h_action) h_unit,
        ⟨h_some unit h.1, h_unit⟩, h_action⟩
  | unitFile unit =>
    constructor
    · rintro ⟨words, -, -, h_operand⟩
      exact h_operand.2
    · intro h_unit
      exact ⟨["cat", unit], rfl, readSystemctl_unit (.inr rfl) h_unit, h_some unit h, h_unit⟩
  | serviceLogs unit limit since priority order =>
    let count := String.ofList (floorText (limit.getD (.finite 300)))
    obtain ⟨options, h_options, h_fixed⟩ := readJournalctl_rest since priority order
    have h_count : isCount count = true ↔ ∀ x, limit = some x → Countable x := by
      rw [isCount_floorText]
      cases limit with
      | none => exact iff_of_true (countable_finite.mpr (by norm_num)) nofun
      | some x => simp
    generalize h_words : (valueArgs "--since" (journalSince since) ++
      valueArgs "-p" (journalPriority priority) ++
      (if order = some "newest" then [Arg.word "--reverse"] else [])).map Arg.text = words
      at h_options
    have h_argv : (SystemdCall.serviceLogs unit limit since priority order).argv.map Arg.text =
        "journalctl" :: "-u" :: unit :: "-n" :: count :: "--no-pager" :: "--output" :: "short-iso" ::
          words := by
      rw [← h_words]
      simp [SystemdCall.argv, Arg.text, count]
    have h_tail : readJournalctl ("--no-pager" :: "--output" :: "short-iso" :: words) =
        some (("--no-pager", none) :: ("--output", some "short-iso") :: options) := by
      simp [readJournalctl, h_options]
    have h_read : readJournalctl ("-u" :: unit :: "-n" :: count :: "--no-pager" :: "--output" ::
        "short-iso" :: words) = (readJournalctl ("-n" :: count :: "--no-pager" :: "--output" ::
          "short-iso" :: words)).map (("-u", some unit) :: ·) := by
      rw [readJournalctl, if_pos (.inl (by decide))]
    rw [SystemdCall.Fits, ← h_count]
    constructor
    · rintro ⟨words', options', h_eq, h_read', h_fixed'⟩
      rw [h_argv] at h_eq
      rw [← (List.cons.inj h_eq).2, h_read] at h_read'
      by_contra h_other
      -- The word behind `-n` is read on its own, and it is none of the options.
      have h_unknown := floorText_unknown (limit.getD (.finite 300))
      have h_none : readJournalctl ("-n" :: count :: "--no-pager" :: "--output" :: "short-iso" ::
          words) = none := by
        simp only [List.mem_cons, List.not_mem_nil, or_false, not_or] at h_unknown
        simp [readJournalctl, h_other, count, h_unknown]
      rw [h_none] at h_read'
      cases h_read'
    · intro h_yes
      refine ⟨_, ("-n", some count) :: ("--no-pager", none) :: ("--output", some "short-iso") ::
        options, h_argv, ?_, ?_⟩
      · rw [h_read, readJournalctl, if_pos (.inr ⟨rfl, h_yes⟩), h_tail]
        rfl
      · intro o h_o
        simp only [List.mem_cons] at h_o
        obtain rfl | rfl | rfl | h_o := h_o
        · exact h_yes
        · trivial
        · rfl
        · exact h_fixed o h_o

/-! ### The commands of a call -/

/-- A script that sends one command and then only looks at the answer. -/
theorem run_meets {P : Request → Prop} {Q : α → Prop} {argv : Argv} {f : ExecResult → HostScript α}
    (h : P (.run argv none)) (h_f : ∀ res, (f res).Meets P Q) : (run argv >>= f).Meets P Q := by
  refine Script.Meets.bind (Q := fun _ => True) ?_ fun res _ => h_f res
  refine Script.Meets.send h fun reply => ?_
  cases reply with
  | exec res => exact Script.Meets.pure trivial
  | paths paths => exact Script.Meets.fail
  | done => exact Script.Meets.fail
  | rejected message => exact Script.Meets.fail

theorem SystemdCall.meets (call : SystemdCall) : call.script.Meets
    (fun r => call.Accepted ∧ r = .run call.argv none) fun _ => call.Accepted := by
  cases call with
  | serviceAction unit action =>
    refine Script.Meets.bind (Script.Meets.require (c := safeUnit unit = true)) ?_
    intro _ h_unit
    refine Script.Meets.bind (Script.Meets.require (c := action ∈ serviceActions)) ?_
    intro _ h_action
    refine run_meets ⟨⟨h_unit, h_action⟩, rfl⟩ fun res => ?_
    exact Script.Meets.require.mono fun _ _ => ⟨h_unit, h_action⟩
  | serviceLogs unit limit since priority order =>
    refine Script.Meets.bind (Q := fun _ => safeUnit unit = true) ?_
      fun _ h_unit => Script.Meets.pure h_unit
    refine Script.Meets.bind (Script.Meets.require (c := safeUnit unit = true)) ?_
    intro _ h_unit
    exact run_meets ⟨h_unit, rfl⟩ fun res => Script.Meets.pure h_unit
  | unitFile unit =>
    refine Script.Meets.bind (Q := fun _ => safeUnit unit = true) ?_
      fun _ h_unit => Script.Meets.pure h_unit
    refine Script.Meets.bind (Script.Meets.require (c := safeUnit unit = true)) ?_
    intro _ h_unit
    exact run_meets ⟨h_unit, rfl⟩ fun res => Script.Meets.pure h_unit

/-- An accepted call sends its command. -/
theorem SystemdCall.sends {call : SystemdCall} (h : call.Accepted)
    (host : List Request → Reply) : .run call.argv none ∈ (call.script.run host []).1 := by
  cases call with
  | serviceAction unit action =>
    rw [SystemdCall.script, systemdServiceAction, assertUnit, Script.require_bind h.1,
      assertServiceAction, Script.require_bind h.2]
    exact Script.mem_run_send _ _ host
  | serviceLogs unit limit since priority order =>
    have h : safeUnit unit = true := h
    rw [SystemdCall.script, systemdServiceLogs, assertUnit, Script.require_bind h]
    exact Script.mem_run_send _ _ host
  | unitFile unit =>
    have h : safeUnit unit = true := h
    rw [SystemdCall.script, systemdUnitFile, assertUnit, Script.require_bind h]
    exact Script.mem_run_send _ _ host

/-- What holds of a call on a host: its commands are read as they are meant, and an input for
which there is no such command ends the call before one is run. -/
structure UnitsRead (call : SystemdCall) (host : List Request → Reply) : Prop where
  read : ∀ r ∈ (call.script.run host []).1, ∃ argv cwd, r = .run argv cwd ∧
    call.ReadAs (argv.map Arg.text)
  refused : ¬call.Fits → (call.script.run host []).1 = [] ∧
    ∃ message, (call.script.run host []).2 = .error message

/-- **Main result.** The units of a call are read as units exactly when one of its checks refuses
it, or the unit of an action or of a unit file does not begin with `-`, or the limit of a log is
a number whose floor is written with digits alone. -/
theorem units_read_iff (call : SystemdCall) (host : List Request → Reply) :
    UnitsRead call host ↔ (call.Accepted → call.Fits) := by
  constructor
  · intro h h_accepted
    by_contra h_fits
    have h_sent := SystemdCall.sends h_accepted host
    rw [(h.refused h_fits).1] at h_sent
    exact List.not_mem_nil h_sent
  · intro h
    by_cases h_accepted : call.Accepted
    · refine ⟨fun r h_r => ?_, fun h_fits => absurd (h h_accepted) h_fits⟩
      obtain h_nil | ⟨-, rfl⟩ := call.meets.requests host [] r h_r
      · exact absurd h_nil List.not_mem_nil
      · exact ⟨_, _, rfl, (SystemdCall.readAs_iff h_accepted).mpr (h h_accepted)⟩
    · have h_sent : (call.script.run host []).1 = [] := by
        refine List.eq_nil_iff_forall_not_mem.mpr fun r h_r => ?_
        obtain h_nil | ⟨h_yes, -⟩ := call.meets.requests host [] r h_r
        · exact List.not_mem_nil h_nil
        · exact h_accepted h_yes
      refine ⟨fun r h_r => absurd (h_sent ▸ h_r) List.not_mem_nil, fun _ => ⟨h_sent, ?_⟩⟩
      cases h_end : (call.script.run host []).2 with
      | error message => exact ⟨message, rfl⟩
      | ok a => exact absurd (call.meets.result host [] h_end) h_accepted

/-- **A unit that is an option** passes every check, and `systemctl` is asked to start nothing on
another host. -/
theorem option_unit_accepted :
    ¬∀ (call : SystemdCall) (host : List Request → Reply), UnitsRead call host := by
  intro h
  have h_read := h (.serviceAction "-Hexample.com" "start") fun _ => .exec ⟨0, "", ""⟩
  obtain ⟨argv, cwd, h_argv, -, -, -, h_operand, -⟩ := h_read.read
    (.run [.word "systemctl", .caller "start", .caller "-Hexample.com"] none) (by decide +kernel)
  exact absurd h_operand.2 (by decide)

end Systemd

end ServerCentral.Backends
