import Mathlib.Data.List.Basic
import Mathlib.Data.List.Count

/-!
# Groups in a flat list of words

A command line can name groups without brackets: a *keyword* starts a group, every other
word joins the group in progress, and a word with no group in progress stands alone.

`Group.write` flattens a group; one without a keyword is written as its words only.
`Group.read` is the reader. Nothing closes a group but the next keyword, so that words
without a keyword of their own are read as written only in front of the first group
(`read_write_iff`).
-/

namespace Framework

/-- A group: its keyword, if it has one, and its words. -/
structure Group (K W : Type*) where
  key : Option K
  words : List W
  deriving DecidableEq, Repr

namespace Group

variable {K W : Type*}

/-- A word that stands alone. -/
def single (w : W) : Group K W := ⟨none, [w]⟩

/-- What a group stands for: without a keyword, each word for itself. -/
def parts (g : Group K W) : List (Group K W) :=
  match g.key with
  | none => g.words.map single
  | some _ => [g]

def write (word : K → W) (g : Group K W) : List W :=
  match g.key with
  | none => g.words
  | some k => word k :: g.words

/-- Read the words, with the group in progress. -/
def read (keyword : W → Option K) : Option (Group K W) → List W → List (Group K W)
  | current, [] => current.toList
  | current, w :: ws =>
    match keyword w with
    | some k => current.toList ++ read keyword (some ⟨some k, []⟩) ws
    | none =>
      match current with
      | some g => read keyword (some { g with words := g.words ++ [w] }) ws
      | none => single w :: read keyword none ws

/-- Every word without a keyword comes before the first group. -/
def SinglesLead (gs : List (Group K W)) : Prop :=
  gs.Pairwise fun g h => h.key = none → g.key = none

variable {keyword : W → Option K} {word : K → W}

theorem read_keyword {w : W} {k : K} (h : keyword w = some k) (current : Option (Group K W))
    (ws : List W) :
    read keyword current (w :: ws) = current.toList ++ read keyword (some ⟨some k, []⟩) ws := by
  cases current with
  | none => rw [read, h]
  | some g => rw [read, h]

/-- Plain words join the group in progress. -/
theorem read_some_append {ws : List W} (h : ∀ w ∈ ws, keyword w = none) (g : Group K W)
    (rest : List W) :
    read keyword (some g) (ws ++ rest) =
      read keyword (some { g with words := g.words ++ ws }) rest := by
  induction ws generalizing g with
  | nil => rw [List.nil_append, List.append_nil]
  | cons w ws ih =>
    have h_w : keyword w = none := h w List.mem_cons_self
    rw [List.cons_append, read, h_w]
    dsimp only
    rw [ih fun w' h_w' => h w' (List.mem_cons_of_mem w h_w')]
    dsimp only
    rw [List.append_assoc, List.singleton_append]

/-- Plain words before the first group stand alone. -/
theorem read_none_append {ws : List W} (h : ∀ w ∈ ws, keyword w = none) (rest : List W) :
    read keyword none (ws ++ rest) = ws.map single ++ read keyword none rest := by
  induction ws with
  | nil => rfl
  | cons w ws ih =>
    have h_w : keyword w = none := h w List.mem_cons_self
    rw [List.cons_append, read, h_w]
    dsimp only
    rw [ih fun w' h_w' => h w' (List.mem_cons_of_mem w h_w')]
    rfl

/-- Groups that can be written: a keyword is read back, a word is none, and no group is
empty. -/
structure Writable (keyword : W → Option K) (word : K → W) (gs : List (Group K W)) : Prop where
  keyword_word : ∀ g ∈ gs, ∀ k, g.key = some k → keyword (word k) = some k
  plain : ∀ g ∈ gs, ∀ w ∈ g.words, keyword w = none
  nonempty : ∀ g ∈ gs, g.words ≠ []

theorem Writable.tail {g : Group K W} {gs : List (Group K W)}
    (h : Writable keyword word (g :: gs)) : Writable keyword word gs where
  keyword_word g' h_g' := h.keyword_word g' (List.mem_cons_of_mem g h_g')
  plain g' h_g' := h.plain g' (List.mem_cons_of_mem g h_g')
  nonempty g' h_g' := h.nonempty g' (List.mem_cons_of_mem g h_g')

/-- A written group behind another one: a keyword closes the other, and words without one
are taken into it. -/
theorem read_some_write {g h : Group K W} {gs : List (Group K W)}
    (hw : Writable keyword word (h :: gs)) :
    read keyword (some g) ((h :: gs).flatMap (write word)) =
      match h.key with
      | some _ => g :: read keyword (some h) (gs.flatMap (write word))
      | none => read keyword (some { g with words := g.words ++ h.words })
          (gs.flatMap (write word)) := by
  have h_plain := hw.plain h List.mem_cons_self
  rw [List.flatMap_cons]
  cases h_key : h.key with
  | none =>
    have h_write : write word h = h.words := by rw [write, h_key]
    rw [h_write, read_some_append h_plain]
  | some k =>
    have h_write : write word h = word k :: h.words := by rw [write, h_key]
    have h_word := hw.keyword_word h List.mem_cons_self k h_key
    rw [h_write, List.cons_append, read_keyword h_word, read_some_append h_plain]
    dsimp only [Option.toList, List.singleton_append, List.nil_append]
    rw [← h_key]

/-- With a group in progress, only keywords start another. -/
theorem length_read_some {gs : List (Group K W)} (hw : Writable keyword word gs)
    (g : Group K W) :
    (read keyword (some g) (gs.flatMap (write word))).length =
      1 + gs.countP fun h => h.key.isSome := by
  induction gs generalizing g with
  | nil => rfl
  | cons h gs ih =>
    rw [read_some_write hw, List.countP_cons]
    cases h_key : h.key with
    | none =>
      show (read keyword _ _).length = _
      rw [ih hw.tail]
      simp
    | some k =>
      show (read keyword _ _).length + 1 = _
      rw [ih hw.tail]
      simp
      omega

/-- A group stands for one group at least, and for one exactly when it has a keyword and
for one a word otherwise. -/
theorem countP_le_length_parts {gs : List (Group K W)} (hw : Writable keyword word gs) :
    (gs.countP fun h => h.key.isSome) + (gs.countP fun h => h.key.isNone) ≤
      (gs.flatMap parts).length := by
  induction gs with
  | nil => exact Nat.le_refl 0
  | cons h gs ih =>
    have h_words : 0 < h.words.length := List.length_pos_iff.mpr (hw.nonempty h List.mem_cons_self)
    have ih := ih hw.tail
    rw [List.countP_cons, List.countP_cons, List.flatMap_cons, List.length_append, parts]
    cases h_key : h.key with
    | none =>
      simp only [Option.isSome_none, Option.isNone_none, List.length_map]
      simp only [Bool.false_eq_true, if_false, if_true]
      omega
    | some k =>
      simp only [Option.isSome_some, Option.isNone_some, List.length_singleton]
      simp only [Bool.false_eq_true, if_false, if_true]
      omega

/-- **Behind a group** everything is read as written exactly when it has keywords. -/
theorem read_some_iff {gs : List (Group K W)} (hw : Writable keyword word gs) (g : Group K W) :
    read keyword (some g) (gs.flatMap (write word)) = g :: gs.flatMap parts ↔
      ∀ h ∈ gs, h.key ≠ none := by
  constructor
  · intro h_eq
    have h_len := congrArg List.length h_eq
    rw [length_read_some hw, List.length_cons] at h_len
    have h_le := countP_le_length_parts hw
    have h_zero : (gs.countP fun h => h.key.isNone) = 0 := by omega
    intro h h_mem h_key
    refine List.countP_eq_zero.mp h_zero h h_mem ?_
    rw [h_key]
    rfl
  · intro h_keys
    induction gs generalizing g with
    | nil => rfl
    | cons h gs ih =>
      obtain ⟨k, h_key⟩ := Option.ne_none_iff_exists'.mp (h_keys h List.mem_cons_self)
      have h_parts : parts h = [h] := by rw [parts, h_key]
      rw [read_some_write hw, h_key, List.flatMap_cons, h_parts]
      dsimp only
      rw [ih hw.tail h fun h' h_mem => h_keys h' (List.mem_cons_of_mem h h_mem)]
      rfl

/-- **Reading back.** What is written is read as it was meant exactly when the words
without a keyword come first. -/
theorem read_write_iff {gs : List (Group K W)} (hw : Writable keyword word gs) :
    read keyword none (gs.flatMap (write word)) = gs.flatMap parts ↔ SinglesLead gs := by
  induction gs with
  | nil => exact ⟨fun _ => List.Pairwise.nil, fun _ => rfl⟩
  | cons g gs ih =>
    have h_plain := hw.plain g List.mem_cons_self
    rw [List.flatMap_cons, List.flatMap_cons, SinglesLead, List.pairwise_cons]
    cases h_key : g.key with
    | none =>
      have h_write : write word g = g.words := by rw [write, h_key]
      have h_parts : parts g = g.words.map single := by rw [parts, h_key]
      rw [h_write, h_parts, read_none_append h_plain, List.append_cancel_left_eq, ih hw.tail]
      exact ⟨fun h => ⟨fun _ _ _ => rfl, h⟩, fun h => h.2⟩
    | some k =>
      have h_write : write word g = word k :: g.words := by rw [write, h_key]
      have h_parts : parts g = [g] := by rw [parts, h_key]
      have h_word := hw.keyword_word g List.mem_cons_self k h_key
      rw [h_write, h_parts, List.cons_append, read_keyword h_word, read_some_append h_plain]
      dsimp only [Option.toList, List.nil_append, List.singleton_append]
      rw [← h_key, read_some_iff hw.tail]
      constructor
      · intro h_keys
        refine ⟨fun h h_mem h_none => absurd h_none (h_keys h h_mem), ?_⟩
        exact List.pairwise_of_forall_mem_list fun a _ b h_b h_none =>
          absurd h_none (h_keys b h_b)
      · rintro ⟨h_lead, -⟩ h h_mem h_none
        exact absurd ((h_lead h h_mem h_none).symm.trans h_key) (by simp)

end Group
end Framework
