import ServerCentral.ClientIp.Canonical

/-!
# The form of an address in text

`format` writes an IPv6 address in the form of RFC 5952. `Rfc5952` says what that is without
the search: every group in lowercase and without leading zeros, and of the runs of two or more
zero groups the first of the longest left out for `::`, and no other.
-/

open Framework

namespace ServerCentral.ClientIp

/-! ### What the form is -/

def lowerHex : List Char := "0123456789abcdef".toList

/-- One group: the number, in lowercase and without leading zeros. -/
structure GroupForm (n : ℕ) (text : Text) : Prop where
  reads : hexGroup text = some n
  lower : ∀ c ∈ text, c ∈ lowerHex
  leading : text.head? = some '0' → text = ['0']

/-- A run of zero groups that none exceeds, and none before it equals. -/
structure FirstLongest (groups : List ℕ) (run : Run) : Prop where
  zeros : ZeroRun groups run
  longest : ∀ other, ZeroRun groups other → other.length ≤ run.length
  first : ∀ other, ZeroRun groups other → other.length = run.length → run.start ≤ other.start

inductive Rfc5952 (groups : List ℕ) : Text → Prop
  /-- No two zero groups follow each other. -/
  | full (texts : List Text) (h_texts : List.Forall₂ GroupForm groups texts)
      (h_short : ∀ run, ZeroRun groups run → run.length < 2) : Rfc5952 groups (join ':' texts)
  | elided (texts : List Text) (h_texts : List.Forall₂ GroupForm groups texts) (run : Run)
      (h_first : FirstLongest groups run) (h_long : 2 ≤ run.length) :
      Rfc5952 groups (join ':' (texts.take run.start) ++ "::".toList ++
        join ':' (texts.drop (run.start + run.length)))

/-! ### Groups -/

theorem groupForm_toDigits {n : ℕ} (h : n < 0x10000) : GroupForm n (Nat.toDigits 16 n) where
  reads := by
    have h_reads := hexGroup_text (groupOf n h)
    rwa [groupOf_value] at h_reads
  lower := forall_toDigits (by decide) (by decide)
  leading h_head := by
    by_cases h_zero : n = 0
    · rw [h_zero]
      rfl
    · exact absurd h_head (head_toDigits (by decide) le_rfl h_zero)

theorem groupForms {groups : List ℕ} (h : ∀ g ∈ groups, g < 0x10000) :
    List.Forall₂ GroupForm groups (groups.map (Nat.toDigits 16)) := by
  rw [List.forall₂_map_right_iff, List.forall₂_same]
  exact fun g h_g => groupForm_toDigits (h g h_g)

/-! ### The longest run -/

theorem zeroRun_iff {groups : List ℕ} {run : Run} :
    ZeroRun groups run ↔ ∀ k < run.length, groups[run.start + k]? = some 0 := by
  rw [ZeroRun]
  constructor
  · intro h k h_k
    have h_get := congrArg (·[k]?) h
    simpa [List.getElem?_take, List.getElem?_replicate, h_k] using h_get
  · intro h
    ext1 k
    rw [List.getElem?_take, List.getElem?_replicate, List.getElem?_drop]
    split
    · next h_k => rw [h k h_k]
    · rfl

/-- Zero groups from `k` on. -/
def zerosAt (groups : List ℕ) (k : ℕ) : ℕ := ((groups.drop k).takeWhile (· = 0)).length

/-- What follows the zero groups is none. -/
theorem zerosAt_end (groups : List ℕ) (k : ℕ) : groups[k + zerosAt groups k]? ≠ some 0 := by
  rw [zerosAt, ← List.getElem?_drop]
  induction groups.drop k with
  | nil => simp
  | cons g rest ih =>
    by_cases h_zero : g = 0
    · rw [List.takeWhile_cons_of_pos (by simp [h_zero]), List.length_cons, List.getElem?_cons_succ]
      exact ih
    · rw [List.takeWhile_cons_of_neg (by simp [h_zero])]
      simpa using h_zero

theorem ZeroRun.length_le {groups : List ℕ} {run : Run} (h : ZeroRun groups run) :
    run.length ≤ zerosAt groups run.start := by
  by_contra h_long
  rw [not_le] at h_long
  exact zerosAt_end groups run.start (zeroRun_iff.mp h _ h_long)

/-- The runs that begin before `m` have been compared. -/
structure Searched (groups : List ℕ) (m : ℕ) (st : ℕ × Run) : Prop where
  best : ∀ other, ZeroRun groups other → 0 < other.length → other.start < m →
    other.length ≤ st.2.length ∧ (other.length = st.2.length → st.2.start ≤ other.start)
  start : st.2.start ≤ m
  /-- The loop goes on behind a run: what is skipped is shorter. -/
  skipped : m < st.1 → st.1 - m < st.2.length ∧ groups[st.1]? ≠ some 0

/-- **Step lemma.** -/
theorem Searched.step {groups : List ℕ} {m : ℕ} {st : ℕ × Run} (h : Searched groups m st) :
    Searched groups (m + 1) (runStep groups st m) := by
  obtain ⟨i, best⟩ := st
  have h_start : best.start ≤ m := h.start
  rw [runStep]
  split
  · next h_skipped =>
    obtain ⟨h_short, h_end⟩ := h.skipped h_skipped
    refine ⟨fun other h_zero h_some h_other => ?_, h_start.trans (Nat.le_succ m), fun _ => ?_⟩
    · obtain h_before | rfl := Nat.lt_succ_iff_lt_or_eq.mp h_other
      · exact h.best other h_zero h_some h_before
      · -- A run that begins inside the run behind which the loop goes on ends with it.
        have h_within : other.length ≤ i - other.start := by
          by_contra h_long
          apply h_end
          have h_last := (zeroRun_iff).mp h_zero (i - other.start) (by omega)
          rwa [Nat.add_sub_of_le h_skipped.le] at h_last
        dsimp only at h_short ⊢
        omega
    · exact ⟨by dsimp only at h_short ⊢; omega, h_end⟩
  · next h_here =>
    -- A run that begins here is no longer than the zeros from here on.
    have h_at (other : Run) (h_zero : ZeroRun groups other) (h_other : other.start = m) :
        other.length ≤ zerosAt groups m := by
      rw [← h_other]
      exact h_zero.length_le
    change Searched groups (m + 1) (if zerosAt groups m = 0 then (m + 1, best) else
      (m + zerosAt groups m, if zerosAt groups m > best.length then ⟨m, zerosAt groups m⟩ else best))
    have h_end := zerosAt_end groups m
    generalize zerosAt groups m = run at h_at h_end
    have h_old (other : Run) (h_zero : ZeroRun groups other) (h_some : 0 < other.length)
        (h_other : other.start < m + 1) : other.start = m ∨ other.length ≤ best.length ∧
          (other.length = best.length → best.start ≤ other.start) := by
      obtain h_before | h_eq := Nat.lt_succ_iff_lt_or_eq.mp h_other
      · exact .inr (h.best other h_zero h_some h_before)
      · exact .inl h_eq
    split
    · next h_none =>
      refine ⟨fun other h_zero h_some h_other => ?_, h_start.trans (Nat.le_succ m), fun h_lt => ?_⟩
      · obtain h_eq | h_best := h_old other h_zero h_some h_other
        · have h_length := h_at other h_zero h_eq
          omega
        · exact h_best
      · exact absurd h_lt (lt_irrefl _)
    · next h_some_run =>
      split
      · next h_longer =>
        refine ⟨fun other h_zero h_some h_other => ?_, Nat.le_succ m, fun _ => ⟨?_, h_end⟩⟩
        · obtain h_eq | ⟨h_length, -⟩ := h_old other h_zero h_some h_other
          · exact ⟨h_at other h_zero h_eq, fun _ => h_eq.ge⟩
          · dsimp only
            omega
        · dsimp only
          omega
      · next h_shorter =>
        refine ⟨fun other h_zero h_some h_other => ?_, h_start.trans (Nat.le_succ m),
          fun _ => ⟨?_, h_end⟩⟩
        · obtain h_eq | h_best := h_old other h_zero h_some h_other
          · have h_length := h_at other h_zero h_eq
            dsimp only
            omega
          · exact h_best
        · dsimp only
          omega

/-- **Run lemma.** -/
theorem Searched.of_foldl (groups : List ℕ) (m : ℕ) :
    Searched groups m ((List.range m).foldl (runStep groups) (0, ⟨0, 0⟩)) := by
  induction m with
  | zero =>
    exact ⟨fun _ _ _ h_other => absurd h_other (Nat.not_lt_zero _), le_rfl,
      fun h_lt => absurd h_lt (lt_irrefl _)⟩
  | succ m ih =>
    rw [List.range_succ, List.foldl_append]
    exact ih.step

theorem longestRun_best {groups : List ℕ} (h : groups.length = 8) (other : Run)
    (h_zero : ZeroRun groups other) (h_some : 0 < other.length) :
    other.length ≤ (longestRun groups).length ∧
      (other.length = (longestRun groups).length → (longestRun groups).start ≤ other.start) := by
  have h_room := h_zero.room h_some
  have h_searched := Searched.of_foldl groups 8
  rw [longestRun]
  generalize (List.range 8).foldl (runStep groups) (0, ⟨0, 0⟩) = st at h_searched
  exact h_searched.best other h_zero h_some (by omega)

/-- **The search finds** the first of the longest runs. -/
theorem firstLongest_longestRun {groups : List ℕ} (h : groups.length = 8)
    (h_some : 0 < (longestRun groups).length) : FirstLongest groups (longestRun groups) where
  zeros := zeroRun_longestRun groups
  longest other h_zero := by
    obtain h_none | h_other := Nat.eq_zero_or_pos other.length
    · omega
    · exact (longestRun_best h other h_zero h_other).1
  first other h_zero h_length :=
    (longestRun_best h other h_zero (by omega)).2 h_length

/-! ### The text -/

theorem rfc5952_format {a : Address} (h : a.bytes.length = 16) :
    Rfc5952 (groupsOf a.bytes) (format a) := by
  obtain ⟨h_eight, h_small, -⟩ := groupsOf_spec (n := 8) h
  have h_texts := groupForms h_small
  have h_four : ¬a.bytes.length = 4 := by omega
  rw [format, if_neg h_four]
  dsimp only
  split
  · next h_short =>
    refine .full _ h_texts fun run h_zero => ?_
    by_contra h_long
    have h_best := (longestRun_best h_eight run h_zero (by omega)).1
    omega
  · next h_long => exact .elided _ h_texts _ (firstLongest_longestRun h_eight (by omega)) (by omega)

theorem GroupForm.plain {n : ℕ} {text : Text} (h : GroupForm n text) : Plain ':' text := by
  obtain ⟨g, rfl, -⟩ := hexGroup_eq_some h.reads
  exact g.plain.1

theorem plain_groupForms {groups : List ℕ} {texts : List Text}
    (h : List.Forall₂ GroupForm groups texts) : ∀ part ∈ texts, Plain ':' part := by
  induction h with
  | nil => exact fun _ h_part => absurd h_part List.not_mem_nil
  | cons h_form _ ih =>
    intro part h_part
    obtain rfl | h_part := List.mem_cons.mp h_part
    · exact h_form.plain
    · exact ih part h_part

/-- The text is one piece, or has one `::` between two. -/
theorem Rfc5952.pieces {groups : List ℕ} {text : Text} (h : Rfc5952 groups text) :
    splitDouble ':' text = [text] ∨ ∃ before after, text = before ++ "::".toList ++ after ∧
      splitDouble ':' text = [before, after] := by
  cases h with
  | full texts h_texts h_short => exact .inl (splitDouble_join (plain_groupForms h_texts))
  | elided texts h_texts run h_first h_long =>
    have h_parts := plain_groupForms h_texts
    have h_before : ∀ part ∈ texts.take run.start, Plain ':' part := fun part h_part =>
      h_parts part (List.mem_of_mem_take h_part)
    have h_after : ∀ part ∈ texts.drop (run.start + run.length), Plain ':' part :=
      fun part h_part => h_parts part (List.mem_of_mem_drop h_part)
    refine .inr ⟨_, _, rfl, ?_⟩
    rw [List.append_assoc]
    exact (splitDouble_join_append h_before _).trans (congrArg _ (splitDouble_join h_after))

example : format (.ofGroups [1, 0, 0, 2, 0, 0, 0xAB, 0] rfl) = "1::2:0:0:ab:0".toList := by
  decide +kernel

/-- What holds of the text of an address. -/
structure TextForm (a : Address) : Prop where
  parsed : parseIp (format a) = some a
  injective : ∀ b : Address, b.bytes.length = a.bytes.length → format b = format a → b = a
  rfc5952 : a.bytes.length = 16 → Rfc5952 (groupsOf a.bytes) (format a)
  /-- At most one `::`. -/
  once : a.bytes.length = 16 → (splitDouble ':' (format a)).length ≤ 2

/-- **The text of an address** is read as it, is no other's, and has the usual form. -/
theorem text_form (a : Address) : TextForm a where
  parsed := parseIp_format a
  injective b _ h_text := by
    have h_parsed := parseIp_format b
    rw [h_text, parseIp_format a] at h_parsed
    exact (Option.some.inj h_parsed).symm
  rfc5952 := rfc5952_format
  once h := by
    obtain h_one | ⟨before, after, -, h_two⟩ := (rfc5952_format h).pieces
    · simp [h_one]
    · simp [h_two]

end ServerCentral.ClientIp
