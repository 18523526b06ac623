import ServerCentral.Framework.Splitting
import ServerCentral.Framework.StableSort

/-!
# One log of two streams

`docker logs` hands over what a container wrote to its output and to its errors on two pipes.
`mergeLogStreams` puts the two back into one sequence by the timestamp that docker begins each
line with. A line without one goes with the line above it.

`Merged` is what one wants of the sequence: it is made of the lines of both streams, each
stream in its own order, and it is ordered by the times of the entries. The sort compares
timestamps as texts, which is the order of the times where all timestamps have one width
(`mergeLogStreams_merged`).
-/

open Framework

namespace ServerCentral.Backends

/-! ### The source -/

/-- What a timestamp begins with, `0` for any digit. -/
def stampShape : List Char := "0000-00-00T00:00:00.".toList

/-- `LOG_TIMESTAMP_RE.exec(line)`: the timestamp, and the length of the match. -/
def logTimestamp (line : List Char) : Option (List Char × ℕ) :=
  let second := line.take stampShape.length
  let rest := line.drop stampShape.length
  let digits := rest.takeWhile (isDigitOf 10)
  if Fits stampShape second ∧ digits ≠ [] ∧ ['Z', ' '] <+: rest.dropWhile (isDigitOf 10) then
    some (second ++ digits ++ ['Z'], (second ++ digits ++ ['Z', ' ']).length)
  else none

/-- A line with the timestamp it is sorted by and the length of its own. -/
structure Stamped where
  ts : List Char
  line : List Char
  prefixLength : ℕ
  deriving DecidableEq, Repr

/-- The lines of a stream: what follows the final newline is no line. -/
def logLines (text : List Char) : List (List Char) :=
  let lines := text.splitOn '\n'
  if lines.getLast? = some [] then lines.dropLast else lines

def stampLines (last : List Char) : List (List Char) → List Stamped
  | [] => []
  | line :: lines =>
    match logTimestamp line with
    | none => ⟨last, line, 0⟩ :: stampLines last lines
    | some (ts, length) => ⟨ts, line, length⟩ :: stampLines ts lines

def stamped (text : List Char) : List Stamped := stampLines [] (logLines text)

def mergeLogStreams (stdout stderr : List Char) (keepTimestamps : Bool) : List Char :=
  join '\n' ((sortOn Stamped.ts (stamped stdout ++ stamped stderr)).map fun l =>
    if keepTimestamps then l.line else l.line.drop l.prefixLength)

/-! ### What a merged log is -/

/-- A time of day and year in UTC, with a fraction of the second. -/
def IsTimestamp (ts : List Char) : Prop :=
  ∃ second digits, ts = second ++ digits ++ ['Z'] ∧ Fits stampShape second ∧ digits ≠ [] ∧
    ∀ c ∈ digits, isDigitOf 10 c = true

/-- The timestamp that a line begins with. -/
def stampOf (line : List Char) : Option (List Char) := (logTimestamp line).map Prod.fst

/-- The timestamp of the entry a line belongs to: the last one that is not below the line. -/
def entryStamp (lines : List (List Char)) (i : ℕ) : Option (List Char) :=
  ((lines.take (i + 1)).filterMap stampOf).getLast?

/-- A line of one of the streams. -/
structure LogLine where
  stderr : Bool
  line : List Char
  stamp : Option (List Char)

/-- The time of a line's entry, its digits read as one number. A line above every entry comes
before all times. -/
def LogLine.time (l : LogLine) : WithBot ℕ := l.stamp.elim ⊥ fun ts => digitsNumber ts

def streamLines (stderr : Bool) (text : List Char) : List LogLine :=
  (logLines text).mapIdx fun i line => ⟨stderr, line, entryStamp (logLines text) i⟩

/-- What is shown of a line: all of it, or what follows the timestamp it begins with. -/
inductive Shows : Bool → List Char → List Char → Prop
  | kept (line : List Char) : Shows true line line
  | cut {ts : List Char} (h : IsTimestamp ts) (rest : List Char) :
      Shows false (ts ++ ' ' :: rest) rest
  | unstamped {line : List Char} (h : ∀ ts rest, IsTimestamp ts → line ≠ ts ++ ' ' :: rest) :
      Shows false line line

/-- **A merged log.** -/
structure Merged (keep : Bool) (stdout stderr result : List Char) (lines : List LogLine)
    (shown : List (List Char)) : Prop where
  text : result = join '\n' shown
  shown : List.Forall₂ (fun l s => Shows keep l.line s) lines shown
  out : lines.filter (fun l => !l.stderr) = streamLines false stdout
  err : lines.filter LogLine.stderr = streamLines true stderr
  order : lines.Pairwise fun a b => a.time < b.time ∨ a.time = b.time ∧ (a.stderr → b.stderr)
  together : ∀ a b c, [a, b, c].Sublist lines → a.stderr = c.stderr → a.time = c.time →
    b.stderr = a.stderr

/-- Timestamps of one width, in the order of their times. -/
structure Chronological (width : ℕ) (text : List Char) : Prop where
  width : ∀ ts ∈ (logLines text).filterMap stampOf, ts.length = width
  order : ((logLines text).filterMap stampOf).Pairwise fun ts ts' =>
    digitsNumber ts ≤ digitsNumber ts'

/-! ### Timestamps -/

theorem logTimestamp_iff {line ts : List Char} {n : ℕ} :
    logTimestamp line = some (ts, n) ↔
      IsTimestamp ts ∧ (∃ rest, line = ts ++ ' ' :: rest) ∧ n = ts.length + 1 := by
  constructor
  · intro h
    simp only [logTimestamp] at h
    split at h
    case isFalse => cases h
    case isTrue h_match =>
      obtain ⟨h_shape, h_some, rest, h_rest⟩ := h_match
      obtain ⟨rfl, rfl⟩ := Prod.mk.inj (Option.some.inj h)
      refine ⟨⟨_, _, rfl, h_shape, h_some, fun c h_c => ?_⟩, ⟨rest, ?_⟩, by simp; omega⟩
      · exact List.mem_takeWhile_imp h_c
      · -- the line is put together from its three parts
        calc line = line.take stampShape.length ++ line.drop stampShape.length :=
              (List.take_append_drop _ _).symm
          _ = line.take stampShape.length
              ++ ((line.drop stampShape.length).takeWhile (isDigitOf 10)
                ++ (line.drop stampShape.length).dropWhile (isDigitOf 10)) := by
              rw [List.takeWhile_append_dropWhile]
          _ = _ := by
              rw [← h_rest]
              simp
  · rintro ⟨⟨second, digits, rfl, h_shape, h_some, h_digits⟩, ⟨rest, rfl⟩, rfl⟩
    have h_length : stampShape.length = second.length := h_shape.length_eq
    have h_line : second ++ digits ++ ['Z'] ++ ' ' :: rest
        = second ++ (digits ++ 'Z' :: ' ' :: rest) := by simp
    have h_take : (digits ++ 'Z' :: ' ' :: rest).takeWhile (isDigitOf 10) = digits := by
      rw [List.takeWhile_append_of_pos h_digits]
      simp [isDigitOf, digitValue]
    have h_drop : (digits ++ 'Z' :: ' ' :: rest).dropWhile (isDigitOf 10)
        = 'Z' :: ' ' :: rest := by
      rw [List.dropWhile_append_of_pos h_digits]
      simp [isDigitOf, digitValue]
    simp only [logTimestamp, h_line, h_length, List.take_left, List.drop_left, h_take, h_drop]
    rw [if_pos ⟨h_shape, h_some, rest, rfl⟩]
    simp [add_assoc]

theorem stampOf_iff {line ts : List Char} :
    stampOf line = some ts ↔ IsTimestamp ts ∧ ∃ rest, line = ts ++ ' ' :: rest := by
  rw [stampOf, Option.map_eq_some_iff]
  constructor
  · rintro ⟨⟨ts, n⟩, h, rfl⟩
    obtain ⟨h_ts, h_line, -⟩ := (logTimestamp_iff).mp h
    exact ⟨h_ts, h_line⟩
  · rintro ⟨h_ts, h_line⟩
    exact ⟨(ts, _), (logTimestamp_iff).mpr ⟨h_ts, h_line, rfl⟩, rfl⟩

/-- Timestamps of one width have one shape. -/
theorem IsTimestamp.fits {ts : List Char} (h : IsTimestamp ts) :
    Fits (stampShape ++ List.replicate (ts.length - 21) '0' ++ ['Z']) ts := by
  obtain ⟨second, digits, rfl, h_second, -, h_digits⟩ := h
  have h_length : second.length = 20 := h_second.length_eq.symm
  have h_count : (second ++ digits ++ ['Z']).length - 21 = digits.length := by
    simp only [List.length_append, h_length, List.length_singleton]
    omega
  rw [h_count]
  refine List.rel_append (List.rel_append h_second ?_) (.cons (by simp) .nil)
  clear h_count
  induction digits with
  | nil => exact .nil
  | cons c digits ih =>
    refine .cons (by simpa using h_digits c List.mem_cons_self) (ih fun d h_d => ?_)
    exact h_digits d (List.mem_cons_of_mem c h_d)

theorem IsTimestamp.lt_iff {ts ts' : List Char} (h : IsTimestamp ts) (h' : IsTimestamp ts')
    (h_width : ts.length = ts'.length) : ts < ts' ↔ digitsNumber ts < digitsNumber ts' :=
  digits_lt_iff (h_width ▸ h.fits) h'.fits

theorem IsTimestamp.ne_nil {ts : List Char} (h : IsTimestamp ts) : ts ≠ [] := by
  obtain ⟨second, digits, rfl, -⟩ := h
  simp

/-! ### The lines of a stream -/

/-- The lines make up the stream, up to its final newline. -/
theorem join_logLines (text : List Char) :
    text = join '\n' (logLines text) ∨ text = join '\n' (logLines text) ++ ['\n'] := by
  have h_text : join '\n' (text.splitOn '\n') = text := join_splitOn text
  rw [logLines]
  split
  case isFalse => exact .inl h_text.symm
  case isTrue h_last =>
    obtain ⟨lines, h_lines⟩ := List.getLast?_eq_some_iff.mp h_last
    rw [h_lines] at h_text ⊢
    rw [List.dropLast_concat, ← h_text]
    obtain rfl | h_some := eq_or_ne lines []
    · exact .inl rfl
    · exact .inr (join_concat_nil h_some)

/-- A line as the sort sees it. -/
def LogLine.toStamped (l : LogLine) : Stamped :=
  ⟨l.stamp.getD [], l.line, (logTimestamp l.line).elim 0 Prod.snd⟩

theorem stampLines_cons (last line : List Char) (lines : List (List Char)) :
    stampLines last (line :: lines) =
      match logTimestamp line with
      | none => ⟨last, line, 0⟩ :: stampLines last lines
      | some (ts, length) => ⟨ts, line, length⟩ :: stampLines ts lines := (rfl)

theorem stampLines_eq (last : List Char) (lines : List (List Char)) :
    stampLines last lines = lines.mapIdx fun i line =>
      ⟨(entryStamp lines i).getD last, line, (logTimestamp line).elim 0 Prod.snd⟩ := by
  induction lines generalizing last with
  | nil => rfl
  | cons line lines ih =>
    rw [stampLines_cons, List.mapIdx_cons]
    cases h : logTimestamp line with
    | none =>
      have h_stamp : stampOf line = none := by rw [stampOf, h]; rfl
      simp only [entryStamp, List.take_succ_cons, List.filterMap_cons_none h_stamp]
      rw [ih]
      simp [entryStamp]
    | some found =>
      obtain ⟨ts, length⟩ := found
      have h_stamp : stampOf line = some ts := by rw [stampOf, h]; rfl
      simp only [entryStamp, List.take_succ_cons, List.filterMap_cons_some h_stamp]
      rw [ih]
      simp [entryStamp, List.getLast?_cons]

theorem stamped_eq (side : Bool) (text : List Char) :
    stamped text = (streamLines side text).map LogLine.toStamped := by
  rw [stamped, stampLines_eq, streamLines]
  apply List.ext_getElem?
  intro i
  simp only [List.getElem?_map, List.getElem?_mapIdx, Option.map_map]
  rfl

theorem stampLines_sorted {last : List Char} {lines : List (List Char)}
    (h : (last :: lines.filterMap stampOf).Pairwise (· ≤ ·)) :
    (∀ s ∈ stampLines last lines, last ≤ s.ts) ∧
      (stampLines last lines).Pairwise fun s s' => s.ts ≤ s'.ts := by
  induction lines generalizing last with
  | nil => exact ⟨fun s h_s => absurd h_s List.not_mem_nil, .nil⟩
  | cons line lines ih =>
    rw [stampLines_cons]
    cases h_line : logTimestamp line with
    | none =>
      have h_stamp : stampOf line = none := by rw [stampOf, h_line]; rfl
      rw [List.filterMap_cons_none h_stamp] at h
      obtain ⟨h_last, h_sorted⟩ := ih h
      exact ⟨List.forall_mem_cons.mpr ⟨le_refl last, h_last⟩,
        List.pairwise_cons.mpr ⟨h_last, h_sorted⟩⟩
    | some found =>
      obtain ⟨ts, length⟩ := found
      have h_stamp : stampOf line = some ts := by rw [stampOf, h_line]; rfl
      rw [List.filterMap_cons_some h_stamp] at h
      obtain ⟨h_from, h_rest⟩ := List.pairwise_cons.mp h
      obtain ⟨h_ts, h_sorted⟩ := ih h_rest
      have h_le := h_from ts List.mem_cons_self
      exact ⟨List.forall_mem_cons.mpr ⟨h_le, fun s h_s => h_le.trans (h_ts s h_s)⟩,
        List.pairwise_cons.mpr ⟨h_ts, h_sorted⟩⟩

/-! ### The merge -/

theorem shows_line (keep : Bool) (line : List Char) :
    Shows keep line (if keep then line else line.drop ((logTimestamp line).elim 0 Prod.snd)) := by
  cases keep with
  | true => exact .kept line
  | false =>
    cases h : logTimestamp line with
    | none =>
      refine .unstamped fun ts rest h_ts h_line => ?_
      have h_stamp := (stampOf_iff).mpr ⟨h_ts, rest, h_line⟩
      rw [stampOf, h] at h_stamp
      cases h_stamp
    | some found =>
      obtain ⟨ts, n⟩ := found
      obtain ⟨h_ts, ⟨rest, rfl⟩, rfl⟩ := (logTimestamp_iff).mp h
      have h_drop : (ts ++ ' ' :: rest).drop (ts.length + 1) = rest := by
        rw [List.append_cons]
        exact List.drop_left' (by simp)
      show Shows false (ts ++ ' ' :: rest) ((ts ++ ' ' :: rest).drop (ts.length + 1))
      rw [h_drop]
      exact .cut h_ts rest

section Merge

variable {stdout stderr : List Char} {width : ℕ}

theorem streamLines_stderr {side : Bool} {text : List Char} :
    ∀ l ∈ streamLines side text, l.stderr = side := by
  intro l h_l
  obtain ⟨i, h_i, rfl⟩ := List.mem_mapIdx.mp h_l
  rfl

theorem streamLines_stamp {side : Bool} {text : List Char} {l : LogLine}
    (h_l : l ∈ streamLines side text) {ts : List Char} (h_ts : l.stamp = some ts) :
    ts ∈ (logLines text).filterMap stampOf := by
  obtain ⟨i, h_i, rfl⟩ := List.mem_mapIdx.mp h_l
  exact ((List.take_sublist _ _).filterMap stampOf).subset (List.mem_of_getLast? h_ts)

/-- The keys of a stream are in order. -/
theorem Chronological.sorted {text : List Char} (h : Chronological width text) (side : Bool) :
    (streamLines side text).Pairwise fun l l' => l.toStamped.ts ≤ l'.toStamped.ts := by
  have h_stamps : ((logLines text).filterMap stampOf).Pairwise (· ≤ ·) := by
    refine h.order.imp_of_mem fun {ts ts'} h_mem h_mem' h_le => ?_
    obtain ⟨_, -, h_ts⟩ := List.mem_filterMap.mp h_mem
    obtain ⟨_, -, h_ts'⟩ := List.mem_filterMap.mp h_mem'
    have h_lt := (stampOf_iff.mp h_ts').1.lt_iff (stampOf_iff.mp h_ts).1
      ((h.width _ h_mem').trans (h.width _ h_mem).symm)
    exact not_lt.mp fun h_gt => h_le.not_gt (h_lt.mp h_gt)
  have h_from : ([] :: (logLines text).filterMap stampOf).Pairwise (· ≤ ·) :=
    List.pairwise_cons.mpr ⟨fun ts _ => not_lt.mp (List.not_lt_nil ts), h_stamps⟩
  have h_all := (stampLines_sorted h_from).2
  rw [← stamped, stamped_eq side, List.pairwise_map] at h_all
  exact h_all

/-- The keys compare as the times. -/
theorem time_lt_iff {l l' : LogLine}
    (h : ∀ ts, l.stamp = some ts → IsTimestamp ts ∧ ts.length = width)
    (h' : ∀ ts, l'.stamp = some ts → IsTimestamp ts ∧ ts.length = width) :
    l.toStamped.ts < l'.toStamped.ts ↔ l.time < l'.time := by
  rw [LogLine.toStamped, LogLine.toStamped, LogLine.time, LogLine.time]
  cases h_stamp : l.stamp with
  | none =>
    cases h_stamp' : l'.stamp with
    | none => simp
    | some ts' =>
      have h_some := List.exists_cons_of_ne_nil (h' ts' h_stamp').1.ne_nil
      obtain ⟨c, cs, rfl⟩ := h_some
      simp
  | some ts =>
    cases h_stamp' : l'.stamp with
    | none => simp
    | some ts' =>
      obtain ⟨h_ts, h_width⟩ := h ts h_stamp
      obtain ⟨h_ts', h_width'⟩ := h' ts' h_stamp'
      simpa using h_ts.lt_iff h_ts' (h_width.trans h_width'.symm)

/-- **The streams come together again** by the times of their entries. -/
theorem mergeLogStreams_merged (h_out : Chronological width stdout)
    (h_err : Chronological width stderr) (keep : Bool) :
    ∃ lines shown,
      Merged keep stdout stderr (mergeLogStreams stdout stderr keep) lines shown := by
  let both := streamLines false stdout ++ streamLines true stderr
  let lines := sortOn (fun l : LogLine => l.toStamped.ts) both
  have h_stamp : ∀ l ∈ lines, ∀ ts, l.stamp = some ts → IsTimestamp ts ∧ ts.length = width := by
    intro l h_l ts h_ts
    have h_width : ts.length = width ∧ ∃ line, stampOf line = some ts := by
      obtain h_l | h_l := List.mem_append.mp ((sortOn_perm both).mem_iff.mp h_l)
      · have h_mem := streamLines_stamp h_l h_ts
        exact ⟨h_out.width ts h_mem, (List.mem_filterMap.mp h_mem).imp fun _ h => h.2⟩
      · have h_mem := streamLines_stamp h_l h_ts
        exact ⟨h_err.width ts h_mem, (List.mem_filterMap.mp h_mem).imp fun _ h => h.2⟩
    obtain ⟨h_width, line, h_line⟩ := h_width
    exact ⟨(stampOf_iff.mp h_line).1, h_width⟩
  -- one stream comes before the other where nothing else decides
  have h_sides : both.Pairwise fun a b => a.toStamped.ts = b.toStamped.ts →
      (a.stderr = true → b.stderr = true) := by
    refine List.pairwise_append.mpr ⟨?_, ?_, ?_⟩
    · refine List.pairwise_of_forall_mem_list fun a h_a b _ _ h => ?_
      rw [streamLines_stderr a h_a] at h
      cases h
    · exact List.pairwise_of_forall_mem_list fun a _ b h_b _ _ => streamLines_stderr b h_b
    · exact fun a _ b h_b _ _ => streamLines_stderr b h_b
  have h_order : lines.Pairwise fun a b =>
      a.time < b.time ∨ a.time = b.time ∧ (a.stderr = true → b.stderr = true) := by
    refine (pairwise_sortOn h_sides).imp_of_mem fun {a b} h_a h_b h_ab => ?_
    have h_lt := time_lt_iff (h_stamp a h_a) (h_stamp b h_b)
    have h_gt := time_lt_iff (h_stamp b h_b) (h_stamp a h_a)
    obtain h_less | ⟨h_eq, h_side⟩ := h_ab
    · exact .inl (h_lt.mp h_less)
    · refine .inr ⟨le_antisymm (not_lt.mp fun h => ?_) (not_lt.mp fun h => ?_), h_side⟩
      · exact (h_gt.mpr h).ne h_eq.symm
      · exact (h_lt.mpr h).ne h_eq
  have h_out_lines : both.filter (fun l => !l.stderr) = streamLines false stdout := by
    rw [List.filter_append, List.filter_eq_self.mpr, List.filter_eq_nil_iff.mpr, List.append_nil]
    · exact fun l h_l => by simp [streamLines_stderr l h_l]
    · exact fun l h_l => by simp [streamLines_stderr l h_l]
  have h_err_lines : both.filter LogLine.stderr = streamLines true stderr := by
    rw [List.filter_append, List.filter_eq_nil_iff.mpr, List.filter_eq_self.mpr, List.nil_append]
    · exact streamLines_stderr
    · exact fun l h_l => by simp [streamLines_stderr l h_l]
  refine ⟨lines, lines.map fun l => if keep then l.line else l.line.drop l.toStamped.prefixLength,
    ⟨?_, ?_, ?_, ?_, h_order, ?_⟩⟩
  · rw [mergeLogStreams, stamped_eq false stdout, stamped_eq true stderr, ← List.map_append,
      ← map_sortOn, List.map_map]
    rfl
  · rw [List.forall₂_map_right_iff, List.forall₂_same]
    exact fun l _ => shows_line keep l.line
  · rw [filter_sortOn (h_out_lines ▸ h_out.sorted false), h_out_lines]
  · rw [filter_sortOn (h_err_lines ▸ h_err.sorted true), h_err_lines]
  · -- a line between two of one entry has their time, so that only the side is left to decide
    intro a b c h_sub h_side h_time
    have h_abc := h_order.sublist h_sub
    simp only [List.pairwise_cons, List.mem_cons, List.not_mem_nil, or_false, forall_eq_or_imp,
      forall_eq] at h_abc
    obtain ⟨⟨h_ab, -⟩, h_bc, -⟩ := h_abc
    have h_none : ¬ (a.time < b.time) ∧ ¬ (b.time < c.time) := by
      rw [h_time] at h_ab ⊢
      obtain h_lt | ⟨h_eq, -⟩ := h_ab
      · obtain h_lt' | ⟨h_eq', -⟩ := h_bc
        · exact absurd (h_lt.trans h_lt') (lt_irrefl _)
        · exact absurd h_lt (h_eq' ▸ lt_irrefl _)
      · exact ⟨h_eq ▸ lt_irrefl _, h_eq ▸ lt_irrefl _⟩
    have h_to := (h_ab.resolve_left h_none.1).2
    have h_from := (h_bc.resolve_left h_none.2).2
    cases h_a : a.stderr with
    | true => exact h_to h_a
    | false =>
      rw [Bool.eq_false_iff]
      exact fun h_b => Bool.false_ne_true (h_a.symm.trans (h_side.trans (h_from h_b)))

/-- A request whose error falls between two entries of the access log. -/
theorem mergeLogStreams_two :
    ∃ lines shown, Merged false
      "2024-05-01T10:00:00.100000000Z GET /\n2024-05-01T10:00:00.300000000Z GET /a".toList
      "2024-05-01T10:00:00.200000000Z no such file\n  at open\n".toList
      (mergeLogStreams
        "2024-05-01T10:00:00.100000000Z GET /\n2024-05-01T10:00:00.300000000Z GET /a".toList
        "2024-05-01T10:00:00.200000000Z no such file\n  at open\n".toList false) lines shown :=
  @mergeLogStreams_merged _ _ 30
    ⟨by decide +kernel, by decide +kernel⟩ ⟨by decide +kernel, by decide +kernel⟩ false

end Merge

end ServerCentral.Backends
