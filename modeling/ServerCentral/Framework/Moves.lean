import ServerCentral.Framework.Table

/-!
# Sequences of moves

`Table.move` gives an entry another key and replaces what stands there, and `Table.moveAll`
makes a list of moves one after another, of which only those happen that `ok` lets through.

As long as no key is the source of two moves or the target of two, and no source is a
target, the order does not matter: what is found afterwards is what `Moved` says, whichever
moves happen. A target that holds an entry loses it. That no entry is stored under two keys
is kept by every move (`Injective.moveAll`).
-/

namespace Framework

namespace Table

variable {K V : Type*} [DecidableEq K]

/-- Give the entry of `a` the key `b`. -/
def move (t : Table K V) (a b : K) : Table K V :=
  match t.get? a with
  | none => t
  | some v => if a = b then t else (t.erase a).set b v

def moveAll (ok : K → K → Bool) : List (K × K) → Table K V → Table K V
  | [], t => t
  | m :: moves, t => moveAll ok moves (if ok m.1 m.2 then t.move m.1 m.2 else t)

/-- No two entries have one value. -/
def Injective (t : Table K V) : Prop :=
  ∀ k k' v, t.get? k = some v → t.get? k' = some v → k = k'

variable {t t' : Table K V} {a b : K}

theorem move_target {v : V} (h : t.get? a = some v) : (t.move a b).get? b = some v := by
  rw [move, h]
  dsimp only
  split
  · next h_eq => rwa [← h_eq]
  · exact get?_set_self _ _ _

theorem move_source {v : V} (h : t.get? a = some v) (h_ne : a ≠ b) : (t.move a b).get? a = none := by
  rw [move, h]
  dsimp only
  rw [if_neg h_ne, get?_set_of_ne _ _ h_ne]
  exact get?_erase_self t a

theorem move_other {k : K} (h_a : k ≠ a) (h_b : k ≠ b) : (t.move a b).get? k = t.get? k := by
  rw [move]
  split
  · rfl
  split
  · rfl
  · rw [get?_set_of_ne _ _ h_b, get?_erase_of_ne t h_a]

/-- A move finds nothing new, and the file of its source only at its target. -/
theorem move_value {k : K} {v : V} (h : (t.move a b).get? k = some v) :
    (k = b ∧ t.get? a = some v) ∨ t.get? k = some v := by
  rw [move] at h
  split at h
  · exact .inr h
  next w h_a =>
    split at h
    · exact .inr h
    obtain ⟨rfl, rfl⟩ | ⟨-, h⟩ := get?_set_eq_some h
    · exact .inl ⟨rfl, h_a⟩
    · exact .inr (get?_erase.mp h).1

theorem Injective.move (h : t.Injective) (a b : K) : (t.move a b).Injective := by
  rw [Table.move]
  split
  · exact h
  next v h_a =>
    split
    · exact h
    intro k k' w h_k h_k'
    obtain ⟨rfl, rfl⟩ | ⟨-, h_k⟩ := get?_set_eq_some h_k
    · obtain ⟨rfl, -⟩ | ⟨-, h_k'⟩ := get?_set_eq_some h_k'
      · rfl
      · obtain ⟨h_k', h_ne⟩ := get?_erase.mp h_k'
        exact absurd (h k' a w h_k' h_a) h_ne
    · obtain ⟨h_old, h_ne⟩ := get?_erase.mp h_k
      obtain ⟨-, h_w⟩ | ⟨-, h_k'⟩ := get?_set_eq_some h_k'
      · exact absurd (h k a w h_old (h_w ▸ h_a)) h_ne
      · exact h k k' w h_old (get?_erase.mp h_k').1

theorem Injective.moveAll (h : t.Injective) (ok : K → K → Bool) (moves : List (K × K)) :
    (t.moveAll ok moves).Injective := by
  induction moves generalizing t with
  | nil => exact h
  | cons m moves ih =>
    rw [Table.moveAll]
    apply ih
    split
    · exact h.move m.1 m.2
    · exact h

/-! ### Apart -/

/-- The moves do not get into each other's way, and each has an entry to move. -/
structure Apart (moves : List (K × K)) (t : Table K V) : Prop where
  sources : (moves.map Prod.fst).Nodup
  targets : (moves.map Prod.snd).Nodup
  disjoint : ∀ m ∈ moves, ∀ m' ∈ moves, m.1 ≠ m'.2
  present : ∀ m ∈ moves, ∃ v, t.get? m.1 = some v

/-- What some moves have done. -/
structure Moved (ok : K → K → Bool) (moves : List (K × K)) (t t' : Table K V) : Prop where
  target : ∀ m ∈ moves, ok m.1 m.2 = true → t'.get? m.2 = t.get? m.1
  source : ∀ m ∈ moves, ok m.1 m.2 = true → t'.get? m.1 = none
  other : ∀ k, (∀ m ∈ moves, ok m.1 m.2 = true → k ≠ m.1 ∧ k ≠ m.2) → t'.get? k = t.get? k

/-- The moves behind the first one are apart after it. -/
theorem Apart.tail (ok : K → K → Bool) {m : K × K} {moves : List (K × K)}
    (h : Apart (m :: moves) t) :
    Apart moves (if ok m.1 m.2 then t.move m.1 m.2 else t) := by
  have h_sources := List.nodup_cons.mp h.sources
  refine ⟨h_sources.2, (List.nodup_cons.mp h.targets).2, fun m₁ h₁ m₂ h₂ => ?_, fun m' h_m' => ?_⟩
  · exact h.disjoint m₁ (List.mem_cons_of_mem m h₁) m₂ (List.mem_cons_of_mem m h₂)
  · obtain ⟨v, h_v⟩ := h.present m' (List.mem_cons_of_mem m h_m')
    refine ⟨v, ?_⟩
    split
    · have h_ne : m'.1 ≠ m.1 := fun h_eq => h_sources.1 (h_eq ▸ List.mem_map_of_mem h_m')
      rwa [move_other h_ne (h.disjoint m' (List.mem_cons_of_mem m h_m') m List.mem_cons_self)]
    · exact h_v

/-- **Moves that are apart.** Induction on the moves; the first one is not undone by the
others, since its target is no other target and no source. -/
theorem Apart.moved {ok : K → K → Bool} {moves : List (K × K)} (h : Apart moves t) :
    Moved ok moves t (t.moveAll ok moves) := by
  induction moves generalizing t with
  | nil =>
    exact ⟨fun m h_m => absurd h_m List.not_mem_nil, fun m h_m => absurd h_m List.not_mem_nil,
      fun k _ => rfl⟩
  | cons m moves ih =>
    have h_after := ih (h.tail ok)
    rw [moveAll]
    have h_self : m ∈ m :: moves := List.mem_cons_self
    have h_others : ∀ m' ∈ moves, m'.1 ≠ m.1 ∧ m'.2 ≠ m.2 := by
      intro m' h_m'
      refine ⟨fun h_eq => ?_, fun h_eq => ?_⟩
      · exact (List.nodup_cons.mp h.sources).1 (h_eq ▸ List.mem_map_of_mem h_m')
      · exact (List.nodup_cons.mp h.targets).1 (h_eq ▸ List.mem_map_of_mem h_m')
    have h_ne : m.1 ≠ m.2 := h.disjoint m h_self m h_self
    obtain ⟨v, h_v⟩ := h.present m h_self
    constructor
    case target =>
      intro m' h_m' h_ok
      obtain rfl | h_m' := List.mem_cons.mp h_m'
      · rw [h_after.other m'.2, if_pos h_ok, move_target h_v, h_v]
        intro m₁ h₁ _
        exact ⟨(h.disjoint m₁ (List.mem_cons_of_mem _ h₁) m' h_self).symm, (h_others m₁ h₁).2.symm⟩
      · rw [h_after.target m' h_m' h_ok]
        split
        · exact move_other (h_others m' h_m').1 (h.disjoint m' (List.mem_cons_of_mem _ h_m') m h_self)
        · rfl
    case source =>
      intro m' h_m' h_ok
      obtain rfl | h_m' := List.mem_cons.mp h_m'
      · rw [h_after.other m'.1, if_pos h_ok, move_source h_v h_ne]
        intro m₁ h₁ _
        exact ⟨(h_others m₁ h₁).1.symm, h.disjoint m' h_self m₁ (List.mem_cons_of_mem _ h₁)⟩
      · exact h_after.source m' h_m' h_ok
    case other =>
      intro k h_k
      rw [h_after.other k fun m' h_m' h_ok => h_k m' (List.mem_cons_of_mem m h_m') h_ok]
      split
      · next h_ok =>
        obtain ⟨h_a, h_b⟩ := h_k m h_self h_ok
        exact move_other h_a h_b
      · rfl

/-- Where what is found after some moves was before. -/
theorem Moved.origin {ok : K → K → Bool} {moves : List (K × K)} (h : Moved ok moves t t') {k : K}
    {v : V} (h_k : t'.get? k = some v) :
    (∃ m ∈ moves, ok m.1 m.2 = true ∧ m.2 = k ∧ t.get? m.1 = some v) ∨
      ((∀ m ∈ moves, ok m.1 m.2 = true → k ≠ m.1 ∧ k ≠ m.2) ∧ t.get? k = some v) := by
  by_cases h_target : ∃ m ∈ moves, ok m.1 m.2 = true ∧ m.2 = k
  · obtain ⟨m, h_m, h_ok, rfl⟩ := h_target
    exact .inl ⟨m, h_m, h_ok, rfl, by rw [← h.target m h_m h_ok, h_k]⟩
  · have h_off : ∀ m ∈ moves, ok m.1 m.2 = true → k ≠ m.1 ∧ k ≠ m.2 := by
      intro m h_m h_ok
      refine ⟨?_, fun h_eq => h_target ⟨m, h_m, h_ok, h_eq.symm⟩⟩
      rintro rfl
      exact absurd (h_k.symm.trans (h.source m h_m h_ok)) (by simp)
    exact .inr ⟨h_off, by rw [← h.other k h_off, h_k]⟩

end Table
end Framework
