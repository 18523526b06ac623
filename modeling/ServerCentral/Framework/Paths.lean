import Mathlib.Data.List.Basic
import Mathlib.Logic.Function.Iterate
import ServerCentral.Framework.Splitting

/-!
# Paths, read as text

A path is its segments between slashes. `resolve` follows them without looking at any file
system: an empty segment and `.` stay, `..` goes up, and anything else goes down. A path without
detours (`Straight`) resolves to the segments that are written in it (`resolve_straight`).

Wherever one stands, following segments takes a number of steps back (`stepsBack`) and then goes
down where they lead from the root (`foldl_pushSegment_eq`).
-/

namespace Framework

abbrev Segment := List Char

def segments (path : List Char) : List Segment := path.splitOn '/'

/-- One segment further. -/
def pushSegment (stack : List Segment) (segment : Segment) : List Segment :=
  if segment = [] ∨ segment = ['.'] then stack
  else if segment = ['.', '.'] then stack.dropLast
  else stack ++ [segment]

/-- Where a path leads from the root. -/
def resolve (path : List Char) : List Segment := (segments path).foldl pushSegment []

/-- No segment goes up and no slash is repeated, or the last character. -/
structure Straight (path : List Char) : Prop where
  up : ['.', '.'] ∉ segments path
  empty : [] ∉ (segments path).tail

theorem foldl_pushSegment {l : List Segment} (h_up : ['.', '.'] ∉ l) (h_empty : [] ∉ l)
    (stack : List Segment) : l.foldl pushSegment stack = stack ++ l.filter (· ≠ ['.']) := by
  induction l generalizing stack with
  | nil => simp
  | cons segment l ih =>
    rw [List.mem_cons, not_or] at h_up h_empty
    have h_push : pushSegment stack segment = stack ++ [segment].filter (· ≠ ['.']) := by
      unfold pushSegment
      by_cases h_dot : segment = ['.']
      · simp [h_dot]
      · have h_some : ¬(segment = [] ∨ segment = ['.']) := by
          rintro (h_nil | h_dot')
          · exact h_empty.1 h_nil.symm
          · exact h_dot h_dot'
        rw [if_neg h_some, if_neg (Ne.symm h_up.1), List.filter_singleton]
        simp [h_dot]
    rw [List.foldl_cons, h_push, ih h_up.2 h_empty.2, List.append_assoc, ← List.filter_append]
    rfl

/-- The path begins with a slash. -/
theorem segments_absolute {path : List Char} : segments ('/' :: path) = [] :: segments path :=
  List.splitOn_append_cons_self_of_not_mem List.not_mem_nil path

/-- **A straight path** leads to what is written in it. -/
theorem resolve_straight {path : List Char} (h : Straight ('/' :: path)) :
    resolve ('/' :: path) = (segments path).filter (· ≠ ['.']) := by
  obtain ⟨h_up, h_empty⟩ := h
  rw [segments_absolute] at h_up h_empty
  have h_rest := foldl_pushSegment (List.not_mem_of_not_mem_cons h_up) h_empty []
  rw [resolve, segments_absolute, List.foldl_cons]
  exact h_rest

/-! ### Following segments from somewhere -/

/-- How many segments are taken back, and what is pushed behind that. -/
def climb (steps : ℕ × List Segment) (segment : Segment) : ℕ × List Segment :=
  if segment = ['.', '.'] ∧ steps.2 = [] then (steps.1 + 1, [])
  else (steps.1, pushSegment steps.2 segment)

/-- The segments that are taken back of where one stands. -/
def stepsBack (parts : List Segment) : ℕ := (parts.foldl climb (0, [])).1

theorem foldl_climb (parts : List Segment) (k : ℕ) (pushed stack : List Segment) :
    parts.foldl pushSegment (List.dropLast^[k] stack ++ pushed)
      = List.dropLast^[(parts.foldl climb (k, pushed)).1] stack
        ++ (parts.foldl climb (k, pushed)).2 := by
  induction parts generalizing k pushed with
  | nil => rfl
  | cons segment parts ih =>
    rw [List.foldl_cons, List.foldl_cons]
    by_cases h_up : segment = ['.', '.'] ∧ pushed = []
    · obtain ⟨rfl, rfl⟩ := h_up
      have h_push : pushSegment (List.dropLast^[k] stack ++ []) ['.', '.']
          = List.dropLast^[k + 1] stack ++ [] := by
        rw [List.append_nil, List.append_nil, Function.iterate_succ_apply']
        exact (if_neg (by decide)).trans (if_pos rfl)
      rw [h_push, ih, show climb (k, []) ['.', '.'] = (k + 1, []) from rfl]
    · have h_push : pushSegment (List.dropLast^[k] stack ++ pushed) segment
          = List.dropLast^[k] stack ++ pushSegment pushed segment := by
        rw [pushSegment, pushSegment]
        by_cases h_skip : segment = [] ∨ segment = ['.']
        · rw [if_pos h_skip, if_pos h_skip]
        · rw [if_neg h_skip, if_neg h_skip]
          by_cases h_dots : segment = ['.', '.']
          · rw [if_pos h_dots, if_pos h_dots,
              List.dropLast_append_of_ne_nil fun h_nil => h_up ⟨h_dots, h_nil⟩]
          · rw [if_neg h_dots, if_neg h_dots, List.append_assoc]
      rw [h_push, ih, climb, if_neg h_up]

theorem iterate_dropLast_nil (k : ℕ) : List.dropLast^[k] ([] : List Segment) = [] := by
  induction k with
  | zero => rfl
  | succ k ih => rw [Function.iterate_succ_apply', ih, List.dropLast_nil]

/-- **Following segments** from a place. -/
theorem foldl_pushSegment_eq (parts stack : List Segment) :
    parts.foldl pushSegment stack
      = List.dropLast^[stepsBack parts] stack ++ parts.foldl pushSegment [] := by
  have h_root := foldl_climb parts 0 [] []
  rw [Function.iterate_zero_apply, iterate_dropLast_nil, List.append_nil, List.nil_append] at h_root
  have h_stack := foldl_climb parts 0 [] stack
  rw [Function.iterate_zero_apply, List.append_nil, ← h_root] at h_stack
  exact h_stack

/-- What is pushed is a name. -/
structure IsName (segment : Segment) : Prop where
  empty : segment ≠ []
  here : segment ≠ ['.']
  up : segment ≠ ['.', '.']

theorem mem_foldl_pushSegment {parts stack : List Segment} {segment : Segment}
    (h : segment ∈ parts.foldl pushSegment stack) :
    segment ∈ stack ∨ segment ∈ parts ∧ IsName segment := by
  induction parts generalizing stack with
  | nil => exact .inl h
  | cons part parts ih =>
    obtain h_push | ⟨h_mem, h_name⟩ := ih h
    · rw [pushSegment] at h_push
      split at h_push
      · exact .inl h_push
      · next h_skip =>
        split at h_push
        · exact .inl ((List.dropLast_sublist stack).subset h_push)
        · next h_dots =>
          obtain h_old | h_new := List.mem_append.mp h_push
          · exact .inl h_old
          · obtain rfl := List.mem_singleton.mp h_new
            rw [not_or] at h_skip
            exact .inr ⟨List.mem_cons_self, ⟨h_skip.1, h_skip.2, h_dots⟩⟩
    · exact .inr ⟨List.mem_cons_of_mem _ h_mem, h_name⟩

theorem isName_of_mem {parts : List Segment} {segment : Segment}
    (h : segment ∈ parts.foldl pushSegment []) : IsName segment := by
  obtain h_nil | ⟨-, h_name⟩ := mem_foldl_pushSegment h
  · cases h_nil
  · exact h_name

/-- Names are pushed as they are. -/
theorem foldl_pushSegment_names {names : List Segment} (h : ∀ segment ∈ names, IsName segment)
    (stack : List Segment) : names.foldl pushSegment stack = stack ++ names := by
  have h_filter : names.filter (· ≠ ['.']) = names :=
    List.filter_eq_self.mpr fun segment h_mem => decide_eq_true (h segment h_mem).here
  rw [foldl_pushSegment (fun h_mem => (h _ h_mem).up rfl) (fun h_mem => (h _ h_mem).empty rfl),
    h_filter]

/-! ### Paths put together -/

theorem segments_append (path rest : List Char) :
    segments (path ++ '/' :: rest) = segments path ++ segments rest :=
  List.splitOn_append_cons_self path rest

theorem slash_notMem_of_mem_segments {path : List Char} {segment : Segment}
    (h : segment ∈ segments path) : '/' ∉ segment :=
  notMem_of_mem_splitOn h

end Framework
